import TypedHandles.Stock
import TypedHandles.Signature.Pool
import TypedHandles.Signature.Reader
import TypedHandles.Machine.Run

/-!
Sessions: a machine whose host consists of stock functions, with names for what was made on it.

A name stands for what was stored under it last. It keeps the place of its first use, so an object
that goes by several names has a first one.
-/
namespace TypedHandles

/-- What a name of a session stands for. -/
inductive Item where
  | signature (s : SharedSignature)
  | value (v : Value)
  | handle (h : Handle)
  | site (s : CallSite)
  | pool (index : Nat)
  | registry (id : Nat)
  | cache (id : Nat)
  | lookup (l : Lookup)
  | linker (l : Linker)
  | config (c : LinkerSwitches)
  | point (id : UInt64) (point : Descriptor) (method : Bootstrap)

namespace Item

/-- The value that an item is; a signature loses its instance. -/
def value? : Item → Option Value
  | value v => some v
  | handle h => some (.handle h)
  | site s => some (.callSite s)
  | signature s => some (.signature s.signature)
  | _ => none

def handle? : Item → Option Handle
  | handle h | value (.handle h) => some h
  | _ => none

def site? : Item → Option CallSite
  | site s | value (.callSite s) => some s
  | _ => none

def object? : Item → Option ObjectRef
  | value (.object o) => some o
  | _ => none

def throwable? : Item → Option Throwable
  | value (.throwable t) => some t
  | _ => none

/-- Whether an item is the given handle. -/
def isHandle (h : Handle) (i : Item) : Bool := i.handle?.any (·.same h)

/-- Whether an item is the given site. -/
def isSite (s : CallSite) (i : Item) : Bool := i.site?.any (·.id == s.id)

/-- Whether an item is the given object. -/
def isObject (o : ObjectRef) (i : Item) : Bool := i.object?.any (·.id == o.id)

/-- Whether an item is the given throwable. -/
def isThrowable (t : Throwable) (i : Item) : Bool := i.throwable?.any (·.id == t.id)

/-- Whether an item is the given instance of a signature. -/
def isSignature (s : SharedSignature) : Item → Bool
  | signature t => t.same s
  | _ => false

end Item

/-- A function of a session's host. A quiet one is left out of the record. -/
structure StockFunction where
  body : Stock.Body
  isQuiet : Bool

structure Session where
  state : State
  items : Array (String × Item)
  /-- The classes defined so far, by name. -/
  classes : List (String × ClassDef)
  functions : Array StockFunction
  pools : Array SignaturePool
  /-- The number of signature instances made so far. -/
  signatures : Nat

namespace Session

def empty : Session := ⟨.empty, #[], [], #[], #[], 0⟩

/-! Names. -/

def find? (s : Session) (name : String) : Option Item :=
  (s.items.find? (·.1 == name)).map (·.2)

/-- Puts an item under a name: in the place of an earlier item of the name, else at the end. -/
def store (name : String) (i : Item) (s : Session) : Session :=
  match s.items.findIdx? (·.1 == name) with
  | some k => { s with items := s.items.setIfInBounds k (name, i) }
  | none => { s with items := s.items.push (name, i) }

/-- The first name of an item with the given property. -/
def nameOf? (s : Session) (p : Item → Bool) : Option String :=
  (s.items.find? fun entry => p entry.2).map (·.1)

/-- The class that was defined under a name. -/
def defined? (s : Session) (name : String) : Option ClassDef := s.classes.lookup name

/-- The class of a name. -/
def class? (s : Session) (name : String) : Option ClassDef := ClassDef.find? s.defined? name

/-- The class that now goes by the name of a class of the library. -/
def current (s : Session) (builtin : ClassDef) : ClassDef :=
  (s.defined? builtin.name).getD builtin

def kind? (s : Session) (text : String) : Option Kind := Kind.read? s.defined? text

def signature? (s : Session) (text : String) : Option (Except Failure Signature) :=
  Signature.read? s.defined? text

/-- Defines a class in place of an earlier one of the same name. -/
def define (c : ClassDef) (s : Session) : Session :=
  { s with classes := (c.name, c) :: s.classes.filter (·.1 != c.name) }

/-! Making things. -/

/-- Adds a function to the host. -/
def newFunction (name : String) (f : StockFunction) : StateM Session HostFunction := fun s =>
  (⟨s.functions.size, name⟩, { s with functions := s.functions.push f })

/-- Makes a new instance of a signature. -/
def newSignature (signature : Signature) : StateM Session SharedSignature := fun s =>
  (⟨s.signatures, signature⟩, { s with signatures := s.signatures + 1 })

/-- Makes an empty pool of signatures; yields its number. -/
def newPool : StateM Session Nat := fun s =>
  (s.pools.size, { s with pools := s.pools.push .empty })

def pool (s : Session) (index : Nat) : SignaturePool := (s.pools[index]?).getD .empty

/-- Replaces a pool of signatures. -/
def setPool (index : Nat) (p : SignaturePool) (s : Session) : Session :=
  { s with pools := s.pools.setIfInBounds index p }

/-- The instance of a pool that is equal to the given one. -/
def intern (index : Nat) (signature : SharedSignature) : StateM Session SharedSignature := fun s =>
  let (canonical, p) := (s.pool index).intern signature
  (canonical, s.setPool index p)

/-- Makes a signature and yields the instance of a pool that is equal to it. -/
def makeInterned (index : Nat) (ret : Kind) (params : List Kind) :
    StateM Session (Except Failure SharedSignature) := fun s =>
  match (s.pool index).make s.signatures ret params with
  | .ok (canonical, p) => (.ok canonical, { s.setPool index p with signatures := s.signatures + 1 })
  | .error failure => (.error failure, s)

/-- Makes a counter of host code; yields its number. -/
def newCounter : StateM Session Nat := fun s =>
  (s.state.counters.size,
    { s with state := { s.state with counters := s.state.counters.push 0 } })

/-! Running the machine. -/

/-- The host: the stock functions by number. -/
def host (s : Session) : Host := fun f args =>
  match s.functions[f.id]? with
  | some entry => entry.body.task args
  | none => .value .void

/-- Runs a computation on the state of the machine. -/
def run {α : Type} (x : Exec α) : StateM Session (Except Halt α) := fun s =>
  let (result, state) := x s.state
  (result, { s with state := state })

/-- Performs an operation with the session's host. -/
def perform (operation : Operation) : StateM Session (Except Halt Value) := fun s =>
  run (operation.execute s.host) s

/-! The record of what the host was asked to do. -/

/-- Starts a new record. -/
def startRecord (s : Session) : Session := { s with state := { s.state with journal := [] } }

/-- A call in a record. -/
def callText (name : String) (args : List Value) : String :=
  name ++ "(" ++ ", ".intercalate (args.map Value.text) ++ ")"

/-- The line of an event. A quiet function, the end of host code and what a linker did to its table
have none. -/
def eventText? (s : Session) : Event → Option String
  | .native f args =>
    if (s.functions[f.id]?).any (·.isQuiet) then none else some (callText f.name args)
  | .gate caller request => some ("gate " ++ caller ++ ": " ++ request.text)
  | .bootstrap caller point signature args =>
    some (callText ("bootstrap " ++ caller ++ " " ++ point ++ " " ++ signature.text) args)
  | .ended _ | .published .. | .forgotten .. | .retargeted .. => none

/-- The lines of the record, in the order of the events. -/
def recordLines (s : Session) : List String := s.state.journal.reverse.filterMap s.eventText?

end Session
end TypedHandles
