import TypedHandles.Signature.Text

/-!
The causes of a failure, one type for each kind of failure that has several, and the wording of
each cause.
-/
namespace TypedHandles

/-- A thrown value: an instance of a class, known by its number. What it has suppressed changes and
is kept in the machine's state. -/
structure Throwable where
  id : Nat
  cls : ClassDef
  message : String

namespace Throwable

/-- The class and the message, or the class alone when the message is empty. -/
def text (t : Throwable) : String :=
  if t.message.isEmpty then t.cls.name else t.cls.name ++ ": " ++ t.message

/-- The reference type of a throwable is its class. -/
def refType (t : Throwable) : RefType := .cls t.cls

end Throwable

/-- Why the handles given to an adapter do not fit together. -/
inductive AdapterFault where
  | spreadElement (element : Kind) (index : Nat) (param : Kind)
  | collectorArray (array trailing : Kind)
  | keptParameters (skip pos : Nat)
  | reorderLength (entries arity : Nat)
  | permutedReturn
  | reorderKind (source : Nat) (sourceKind : Kind) (slot : Nat) (slotKind : Kind)
  | filterNotUnary (slot : Nat)
  | filterReturn (slot : Nat) (param : Kind)
  | resultFilter (result : Kind)
  | collectedReturn (param : Kind)
  | combinerReturn (param : Kind)
  | combinerParameters (start : Nat)
  | guardBranches
  | guardTestReturn
  | guardTestParameters
  | handlerReturn
  | handlerException (exception : RefType)
  | handlerParameters
  | cleanupReturn
  | cleanupThrowable
  | cleanupResult (result : Kind)
  | cleanupParameters
  | clauseReturns
  | clauseInit (index : Nat)
  | clauseFunction (index : Nat)
  | clausePredicate (index : Nat)
  | secondResult
  | carriedVariables
  | countedBound
  | countedBody
  | iteratedBody

namespace AdapterFault

/-- The adapter that found the fault. -/
def adapter : AdapterFault → String
  | .spreadElement .. => "as_spreader"
  | .collectorArray .. => "as_collector"
  | .keptParameters .. => "drop_arguments_to_match"
  | .reorderLength .. | .permutedReturn | .reorderKind .. => "permute_arguments"
  | .filterNotUnary _ | .filterReturn .. => "filter_arguments"
  | .resultFilter _ => "filter_return_value"
  | .collectedReturn _ => "collect_arguments"
  | .combinerReturn _ | .combinerParameters _ => "fold_arguments"
  | .guardBranches | .guardTestReturn | .guardTestParameters => "guard_with_test"
  | .handlerReturn | .handlerException _ | .handlerParameters => "catch_exception"
  | .cleanupReturn | .cleanupThrowable | .cleanupResult _ | .cleanupParameters => "try_finally"
  | .clauseReturns | .clauseInit _ | .clauseFunction _ | .clausePredicate _ | .secondResult
  | .carriedVariables => "loop"
  | .countedBound | .countedBody => "counted_loop"
  | .iteratedBody => "iterated_loop"

/-- What is wrong. -/
def detail : AdapterFault → String
  | .spreadElement element index param =>
    s!"array element {element} does not convert to parameter {index} ({param})"
  | .collectorArray array trailing => s!"{array} is not assignable to {trailing}"
  | .keptParameters skip pos => s!"parameters after {skip} must appear at {pos}"
  | .reorderLength entries arity => s!"reorder has {entries} entries, target takes {arity}"
  | .permutedReturn => "return kinds differ"
  | .reorderKind source sourceKind slot slotKind =>
    s!"parameter {source} ({sourceKind}) cannot feed argument {slot} ({slotKind})"
  | .filterNotUnary slot => s!"filter for argument {slot} is not unary"
  | .filterReturn slot param => s!"filter for argument {slot} does not return {param}"
  | .resultFilter result => s!"filter does not accept {result}"
  | .collectedReturn param => s!"filter does not return {param}"
  | .combinerReturn param => s!"combiner does not return {param}"
  | .combinerParameters start => s!"combiner parameters do not match arguments from {start}"
  | .guardBranches => "target and fallback signatures differ"
  | .guardTestReturn => "test does not return boolean"
  | .guardTestParameters => "test parameters are not a prefix of the target parameters"
  | .handlerReturn => "handler return kind differs from target"
  | .handlerException exception => s!"handler does not accept {exception}"
  | .handlerParameters =>
    "handler parameters after the exception are not a prefix of the target parameters"
  | .cleanupReturn => "cleanup return kind differs from target"
  | .cleanupThrowable => "cleanup does not take a throwable first"
  | .cleanupResult result => s!"cleanup does not take the {result} result second"
  | .cleanupParameters => "cleanup trailing parameters are not a prefix of the target parameters"
  | .clauseReturns => "init and step return different kinds"
  | .clauseInit index => s!"clause {index} init does not take a prefix of the loop parameters"
  | .clauseFunction index => s!"clause {index} function does not take a prefix of the loop frame"
  | .clausePredicate index => s!"clause {index} predicate does not return boolean"
  | .secondResult => "more than one finalizer returns a value"
  | .carriedVariables => "loop functions do not start with the carried variables"
  | .countedBound => "loop bounds must return int"
  | .countedBody => "body must take the loop variable and the counter first"
  | .iteratedBody => "body must take the loop variable and the element first"

end AdapterFault

/-- Why an argument of an operation is refused, whatever the handles are. -/
inductive Misuse where
  | parameterIndex (index : Nat) (signature : Signature)
  | parameterRange (start stop : Nat) (signature : Signature)
  | positions (count start : Nat) (signature : Signature)
  | keptTooLong (kept pos available : Nat)
  | reorderIndex (index : Nat) (signature : Signature)
  | trailingArray (signature : Signature) (array : Kind)
  | notArray (kind : Kind)
  | spreadCount (count : Nat) (signature : Signature)
  | nothingToCollect (signature : Signature)
  | notThrowable (type : RefType)
  | noClauses
  | emptyClause (index : Nat)
  | voidSlot
  | lambdaArguments (count : Nat)
  | linkerConfig
  | stated (text : String)

/-- The wording of a refused argument. -/
def Misuse.text : Misuse → String
  | .parameterIndex index signature => s!"parameter {index} out of bounds for {signature}"
  | .parameterRange start stop signature =>
    s!"parameter range {start}..{stop} out of bounds for {signature}"
  | .positions count start signature =>
    s!"{count} positions from {start} out of range for {signature}"
  | .keptTooLong kept pos available =>
    s!"{kept} parameters at {pos} do not fit in {available} new parameters"
  | .reorderIndex index signature => s!"reorder index {index} out of range for {signature}"
  | .trailingArray signature array => s!"{signature} does not end with a {array} parameter"
  | .notArray kind => s!"{kind} is not an array kind"
  | .spreadCount count signature => s!"cannot spread {count} arguments into {signature}"
  | .nothingToCollect signature => s!"{signature} has no trailing parameter to collect into"
  | .notThrowable type => s!"{type} is not throwable"
  | .noClauses => "loop needs at least one clause"
  | .emptyClause index => s!"loop clause {index} is empty"
  | .voidSlot => "cannot bind a value to a void slot"
  | .lambdaArguments count =>
    s!"lambda bootstrap expects (Signature, Handle, Signature), got {count} arguments"
  | .linkerConfig => "invalid linker config"
  | .stated text => text

/-- Why a call site keeps its target. -/
inductive RetargetFault where
  | constant (site : Signature)
  | mismatch (target site : Signature)

/-- The wording of a refused retarget. -/
def RetargetFault.text : RetargetFault → String
  | .constant site => s!"constant call site {site} cannot be retargeted"
  | .mismatch target site => s!"target {target} does not match call site {site}"

/-- Why a member is out of a caller's reach. -/
inductive AccessFault where
  | privateMember (name owner caller : String)
  | stated (text : String)

/-- The wording of a denied access. -/
def AccessFault.text : AccessFault → String
  | .privateMember name owner caller => s!"{name} is private to {owner} (caller {caller})"
  | .stated text => text

/-- The place in the shape of a lambda that does not fit. -/
inductive LambdaSlot where
  | arity
  | instantiatedArity
  | captured (index : Nat)
  | parameter (index : Nat)
  | ret
  deriving DecidableEq, Repr

/-- The wording of a place in the shape of a lambda. -/
def LambdaSlot.text : LambdaSlot → String
  | .arity => "arity"
  | .instantiatedArity => "instantiated arity"
  | .captured index => s!"captured argument {index}"
  | .parameter index => s!"parameter {index}"
  | .ret => "return"

/-- Why an implementation cannot stand behind an interface method. -/
inductive LambdaFault where
  | arity (implementation : Signature) (captured supplied : Nat)
  | instantiatedArity (instantiated interface : Signature)
  | captured (index : Nat) (found wanted : Kind)
  | parameter (index : Nat) (supplied wanted : Kind)
  | factoryReturn (factory : Signature)
  | voidReturn (wanted : Kind)
  | returnKind (found wanted : Kind)

namespace LambdaFault

/-- The place that a fault is reported at. -/
def slot : LambdaFault → LambdaSlot
  | .arity .. => .arity
  | .instantiatedArity .. => .instantiatedArity
  | .captured index _ _ => .captured index
  | .parameter index _ _ => .parameter index
  | .factoryReturn _ | .voidReturn _ | .returnKind .. => .ret

/-- What is wrong there. -/
def detail : LambdaFault → String
  | .arity implementation taken given =>
    s!"implementation {implementation} takes {implementation.params.length} arguments, " ++
      s!"{taken} captured plus {given} supplied"
  | .instantiatedArity instantiated interface =>
    s!"instantiated {instantiated} does not match interface {interface}"
  | .captured _ found wanted => s!"captured {found} where the implementation takes {wanted}"
  | .parameter _ supplied wanted => s!"{supplied} is not convertible to {wanted}"
  | .factoryReturn factory => s!"factory {factory} cannot return a handle"
  | .voidReturn wanted => s!"implementation returns void, {wanted} expected"
  | .returnKind found wanted => s!"{found} is not convertible to {wanted}"

end LambdaFault

end TypedHandles
