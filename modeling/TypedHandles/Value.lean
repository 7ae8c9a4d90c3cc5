import TypedHandles.Signature

/-!
Values, function handles, and the programs that handles run.

A handle pairs a signature with a program: a straight line of steps over numbered slots. The first
slots hold the arguments, and each binding adds one slot with what its step produced. Steps call
other handles, so values, handles and programs are defined together.

Whatever has an identity (a handle, an object, a throwable, a call site) carries a number; whatever
can change (the fields of an object, the target of a site) lies in the machine's state under that
number, and a value never holds it.
-/
namespace TypedHandles

/-- An instance of a class. -/
structure ObjectRef where
  id : Nat
  cls : ClassDef

/-- When a call site may get another target: never, at any time with a plain store, or at any time
with a fenced one. -/
inductive SiteKind where
  | constant | mutable | volatile
  deriving DecidableEq, Repr

/-- The name of a kind of call site. -/
def SiteKind.text : SiteKind → String
  | .constant => "Constant"
  | .mutable => "Mutable"
  | .volatile => "Volatile"

/-- The kind of call site that a keyword names. -/
def SiteKind.ofName? : String → Option SiteKind
  | "constant" => some .constant
  | "mutable" => some .mutable
  | "volatile" => some .volatile
  | _ => none

/-- A call site. Its kind and its signature never change. -/
structure CallSite where
  id : Nat
  kind : SiteKind
  signature : Signature

/-- A position in the frame of a running program. -/
abbrev Slot := Nat

mutual

/-- A value. A primitive that sits in a slot of a reference kind is its own boxed form.
Floating-point values are bit patterns. -/
inductive Value where
  | void
  | null
  | bool (b : Bool)
  | byte (n : Int8)
  | short (n : Int16)
  | char (unit : UInt16)
  | int (n : Int32)
  | long (n : Int64)
  | float (bits : UInt32)
  | double (bits : UInt64)
  | str (text : String)
  | array (element : Kind) (items : List Value)
  | object (object : ObjectRef)
  | throwable (throwable : Throwable)
  | handle (handle : Handle)
  | signature (signature : Signature)
  | callSite (site : CallSite)

/-- An immutable function of known signature. -/
structure Handle where
  id : Nat
  signature : Signature
  program : Program
  variableArity : Bool

/-- A straight line of bindings over `arity` arguments; without a result slot it returns `void`. -/
structure Program where
  arity : Nat
  bindings : List Binding
  result : Option Slot

/-- A step and the kind of the slot that it fills. -/
structure Binding where
  kind : Kind
  step : Step

/-- One step of a program. -/
inductive Step where
  /-- A bound constant. -/
  | const (value : Value)
  /-- Loose conversion of a slot. -/
  | convert (slot : Slot) (source target : Kind)
  /-- A raw action. -/
  | leaf (action : Action) (args : List Slot)
  /-- A call of another handle, whose arguments are already of the right kinds. -/
  | call (target : Handle) (args : List Slot)
  /-- A branch on a test of the leading arguments. -/
  | branch (test target fallback : Handle) (args : List Slot)
  /-- A call whose throwables of one type go to a handler. -/
  | catching (target : Handle) (exception : RefType) (handler : Handle) (args : List Slot)
  /-- A call followed by a cleanup on both paths. -/
  | finishing (target cleanup : Handle) (args : List Slot)
  | loop (plan : LoopPlan) (args : List Slot)
  /-- A fresh array of the given slots. -/
  | collect (element : Kind) (args : List Slot)
  /-- One item of an array that must hold exactly `length` items. -/
  | spread (slot : Slot) (index length : Nat)
  /-- A call of the current target of a site. -/
  | dynamic (site : CallSite) (args : List Slot)

/-- A raw action at the bottom of a handle. An action on a member carries the class that the member
was looked up in; the receiver is the first argument. -/
inductive Action where
  | host (function : HostFunction)
  | intrinsic (function : Intrinsic)
  | virtual (owner : ClassDef) (name : String)
  | getField (owner : ClassDef) (name : String)
  | setField (owner : ClassDef) (name : String)
  | construct (cls : ClassDef)

/-- A function that the library supplies itself. -/
inductive Intrinsic where
  | throwArgument
  | arrayItem
  | arrayLength
  | intLess
  | intIncrement
  /-- Binds the arguments to an implementation and returns the rest of it, at another signature. -/
  | lambda (name : String) (implementation : Handle) (instantiated : Signature)

/-- A validated loop. A clause whose variable is not `void` has a slot among the carried values, and
the finalizer of the clause at `result` yields the result. -/
structure LoopPlan where
  clauses : List LoopClause
  slots : List (Option Slot)
  carried : List Kind
  result : Option Nat

/-- One clause of a loop: how its variable starts, how each round changes it, whether the loop goes
on, and what is done with it in the end. -/
structure LoopClause where
  init : Option Handle
  step : Option Handle
  pred : Option Handle
  fini : Option Handle

end

namespace Handle

def arity (h : Handle) : Nat := h.signature.params.length

/-- Handles have identity: two are the same when they were made at once. -/
def same (a b : Handle) : Bool := a.id == b.id

end Handle

namespace Program

/-- The number of steps. -/
def size (p : Program) : Nat := p.bindings.length

end Program

namespace LoopClause

/-- The clause without functions. -/
def empty : LoopClause := ⟨none, none, none, none⟩

def isEmpty (c : LoopClause) : Bool :=
  c.init.isNone && c.step.isNone && c.pred.isNone && c.fini.isNone

/-- The functions that run on the frame of the loop. -/
def bodyFunctions (c : LoopClause) : List Handle :=
  c.step.toList ++ c.pred.toList ++ c.fini.toList

/-- The kind of the clause's variable: what its step returns, else what its init returns. -/
def variableKind (c : LoopClause) : Kind :=
  match c.step, c.init with
  | some step, _ => step.signature.ret
  | none, some init => init.signature.ret
  | none, none => .void

end LoopClause

namespace Value

/-- The primitive kind of a value. -/
def prim? : Value → Option Prim
  | bool _ => some .bool
  | byte _ => some .byte
  | short _ => some .short
  | char _ => some .char
  | int _ => some .int
  | long _ => some .long
  | float _ => some .float
  | double _ => some .double
  | _ => none

/-- The type of a value in a slot of a reference kind; `null` and `void` have none. -/
def refType? : Value → Option RefType
  | void | null => none
  | bool _ => some (.boxed .bool)
  | byte _ => some (.boxed .byte)
  | short _ => some (.boxed .short)
  | char _ => some (.boxed .char)
  | int _ => some (.boxed .int)
  | long _ => some (.boxed .long)
  | float _ => some (.boxed .float)
  | double _ => some (.boxed .double)
  | str _ => some .string
  | array element _ => some (.array element)
  | object o => some (.cls o.cls)
  | throwable t => some (.cls t.cls)
  | handle _ => some .handle
  | signature _ => some .signature
  | callSite _ => some .callSite

/-- The most precise kind of a value. -/
def kind : Value → Kind
  | void => .void
  | null => .object
  | v =>
    match v.prim?, v.refType? with
    | some p, _ => .prim p
    | none, some t => .ref t
    | none, none => .object

/-- The name of a value's type in messages. -/
def typeName : Value → String
  | void => "void"
  | null => "null"
  | v => v.kind.text

/-- The truth value of a boolean; other values have none. -/
def bool? : Value → Option Bool
  | bool b => some b
  | _ => none

def int? : Value → Option Int32
  | int n => some n
  | _ => none

def long? : Value → Option Int64
  | long n => some n
  | _ => none

def handle? : Value → Option Handle
  | handle h => some h
  | _ => none

/-- The zero of a kind: a zero number, `false`, `null` or `void`. -/
def zero : Kind → Value
  | .void => void
  | .ref _ => null
  | .prim .bool => bool false
  | .prim .byte => byte 0
  | .prim .short => short 0
  | .prim .char => char 0
  | .prim .int => int 0
  | .prim .long => long 0
  | .prim .float => float 0
  | .prim .double => double 0

end Value

/-- The signature of a call with the given arguments. -/
def Signature.ofValues (ret : Kind) (args : List Value) : Except Failure Signature :=
  make ret (args.map Value.kind)

end TypedHandles
