import TypedHandles.Handle.Spread
import TypedHandles.Handle.Loop

/-!
The ways to obtain a handle, as data. Every handle there is was built by one of these from handles
that were there before.
-/
namespace TypedHandles

/-- One way to obtain a handle. -/
inductive Construction where
  | ofAction (signature : Signature) (action : Action)
  | identity (kind : Kind)
  | constant (kind : Kind) (value : Value)
  | zero (kind : Kind)
  | empty (signature : Signature)
  | throwException (ret : Kind) (exception : RefType)
  | arrayItem (array : Kind)
  | arrayLength (array : Kind)
  | asType (target : Handle) (signature : Signature)
  | viewAs (target : Handle) (signature : Signature) (strict : Bool)
  | asVariableArity (target : Handle) (array : Kind)
  | asFixedArity (target : Handle)
  | asSpreader (target : Handle) (array : Kind) (count : Nat)
  | asCollector (target : Handle) (array : Kind) (count : Nat)
  | insertArguments (target : Handle) (pos : Nat) (values : List Value)
  | dropArguments (target : Handle) (pos : Nat) (kinds : List Kind)
  | dropArgumentsToMatch (target : Handle) (skip : Nat) (kinds : List Kind) (pos : Nat)
  | permuteArguments (target : Handle) (signature : Signature) (reorder : List Nat)
  | filterArguments (target : Handle) (pos : Nat) (filters : List (Option Handle))
  | filterReturnValue (target filter : Handle)
  | collectArguments (target : Handle) (pos : Nat) (filter : Handle)
  | foldArguments (target : Handle) (pos : Nat) (combiner : Handle)
  | guardWithTest (test target fallback : Handle)
  | catchException (target : Handle) (exception : RefType) (handler : Handle)
  | tryFinally (target cleanup : Handle)
  | loop (clauses : List LoopClause)
  | whileLoop (init : Option Handle) (pred body : Handle)
  | doWhileLoop (init : Option Handle) (body pred : Handle)
  | countedLoop (iterations : Handle) (init : Option Handle) (body : Handle)
  | countedLoopRange (start stop : Handle) (init : Option Handle) (body : Handle)
  | iteratedLoop (array : Kind) (init : Option Handle) (body : Handle)
  | dynamicInvoker (site : CallSite)

/-- Fixes one parameter to a value. -/
def Construction.bindArgument (target : Handle) (pos : Nat) (value : Value) : Construction :=
  .insertArguments target pos [value]

/-- Computes the first argument by a combiner from the following ones. -/
def Construction.foldLeading (target combiner : Handle) : Construction :=
  .foldArguments target 0 combiner

/-- Obtains the handle, or reports why there is none. -/
def Construction.build : Construction → Build Handle
  | .ofAction signature action => (Blueprint.ofAction signature action).make
  | .identity kind => .accept (Blueprint.identity kind)
  | .constant kind value => .accept (Blueprint.constant kind value)
  | .zero kind => .accept (Blueprint.zero kind)
  | .empty signature => (Blueprint.empty signature).make
  | .throwException ret exception => .accept (Blueprint.throwException ret exception)
  | .arrayItem array => .accept (Blueprint.arrayItem array)
  | .arrayLength array => .accept (Blueprint.arrayLength array)
  | .asType target signature => target.asType signature
  | .viewAs target signature strict => target.viewAs signature strict
  | .asVariableArity target array => target.asVariableArity array
  | .asFixedArity target => target.asFixedArity
  | .asSpreader target array count => .allocate (Blueprint.spreader target array count)
  | .asCollector target array count => .allocate (Blueprint.collector target array count)
  | .insertArguments target pos values => .allocate (Blueprint.insertArguments target pos values)
  | .dropArguments target pos kinds => target.dropArguments pos kinds
  | .dropArgumentsToMatch target skip kinds pos => target.dropArgumentsToMatch skip kinds pos
  | .permuteArguments target signature reorder =>
    .allocate (Blueprint.permuteArguments target signature reorder)
  | .filterArguments target pos filters => .allocate (Blueprint.filterArguments target pos filters)
  | .filterReturnValue target filter => .allocate (Blueprint.filterReturnValue target filter)
  | .collectArguments target pos filter =>
    .allocate (Blueprint.collectArguments target pos filter)
  | .foldArguments target pos combiner => .allocate (Blueprint.foldArguments target pos combiner)
  | .guardWithTest test target fallback => .allocate (Blueprint.branching test target fallback)
  | .catchException target exception handler =>
    .allocate (Blueprint.catching target exception handler)
  | .tryFinally target cleanup => .allocate (Blueprint.finishing target cleanup)
  | .loop clauses => Handle.loop clauses
  | .whileLoop init pred body => Handle.whileLoop init pred body
  | .doWhileLoop init body pred => Handle.doWhileLoop init body pred
  | .countedLoop iterations init body => Handle.countedLoop iterations init body
  | .countedLoopRange start stop init body => Handle.countedLoopRange start stop init body
  | .iteratedLoop array init body => Handle.iteratedLoop array init body
  | .dynamicInvoker site => (Blueprint.dynamicInvoker site).make

end TypedHandles
