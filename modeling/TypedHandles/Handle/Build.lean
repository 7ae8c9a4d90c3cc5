import TypedHandles.Value

/-!
Building handles. A new handle is a signature and a program under a fresh number; the table of
handles gives out the numbers and remembers, for each handle, the last adapter made from it.
-/
namespace TypedHandles

/-- Why a computation ends without a value. -/
inductive Halt where
  /-- It reported a failure. -/
  | failed (failure : Failure)
  /-- It asked for something that does not exist: a slot beyond the frame, a list too long for the
  memory of any machine. Nothing that was built by the rules gets here. -/
  | stuck
  /-- It was cut off before its end. -/
  | exhausted

/-- A computation without state that may halt. -/
abbrev Checked := Except Halt

namespace Checked

/-- Reports a failure. -/
def refuse {α : Type} (failure : Failure) : Checked α := .error (.failed failure)

/-- Passes on a result or reports its failure. -/
def ofExcept {α : Type} : Except Failure α → Checked α
  | .ok a => .ok a
  | .error failure => refuse failure

/-- Passes on what is there; nothing can be done where nothing is. -/
def ofOption {α : Type} : Option α → Checked α
  | some a => .ok a
  | none => .error .stuck

end Checked

/-- The items of a list from position `start` up to `stop`, if the range lies within the list. -/
def slice? {α : Type} (xs : List α) (start stop : Nat) : Option (List α) :=
  if start ≤ stop ∧ stop ≤ xs.length then some ((xs.drop start).take (stop - start)) else none

/-- All handles made so far, each with the last adapter made from it. -/
structure HandleTable where
  adapters : Array (Option Handle)

namespace HandleTable

/-- No handle was made yet. -/
def empty : HandleTable := ⟨#[]⟩

/-- The last adapter made from a handle. -/
def adapter? (t : HandleTable) (h : Handle) : Option Handle := (t.adapters[h.id]?).join

/-- Remembers an adapter of a handle. -/
def remember (t : HandleTable) (h adapter : Handle) : HandleTable :=
  ⟨t.adapters.setIfInBounds h.id (some adapter)⟩

end HandleTable

/-- A computation that may make handles. -/
abbrev Build := ExceptT Halt (StateM HandleTable)

namespace Build

/-- Runs a computation that makes no handle. -/
def ofChecked {α : Type} (x : Checked α) : Build α := fun t => (x, t)

/-- Reports a failure. -/
def refuse {α : Type} (failure : Failure) : Build α := ofChecked (.refuse failure)

end Build

/-- A handle that has no number yet. -/
structure Blueprint where
  signature : Signature
  program : Program

/-- Makes a handle under the next number. -/
def Handle.make (signature : Signature) (program : Program) (variableArity : Bool) : Build Handle :=
  fun t =>
    (.ok ⟨t.adapters.size, signature, program, variableArity⟩, ⟨t.adapters.push none⟩)

/-- Makes a handle of fixed arity from a blueprint. -/
def Blueprint.make (b : Blueprint) : Build Handle := Handle.make b.signature b.program false

/-- Makes the handle of a blueprint that was accepted. -/
def Build.allocate (b : Checked Blueprint) : Build Handle := fun t =>
  match b with
  | .ok blueprint => blueprint.make t
  | .error halt => (.error halt, t)

end TypedHandles
