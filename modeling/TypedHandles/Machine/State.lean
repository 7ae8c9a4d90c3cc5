import TypedHandles.Member.Registry
import TypedHandles.Handle.Shared
import TypedHandles.Kind.Builtin

/-!
Everything that can change while handles are built, linked and run, and the computations over it.
Whatever has an identity is found under its number.
-/
namespace TypedHandles

/-- What a call site holds now, and how often it was given another target (a 64-bit count). -/
structure SiteCell where
  target : Option Handle
  generation : UInt64

/-- What the host was asked to do, how its code ended, what linkers did with their points, and which
sites got another target. -/
inductive Event where
  | native (function : HostFunction) (args : List Value)
  | gate (caller : String) (request : MemberRequest)
  | bootstrap (caller point : String) (signature : Signature) (staticArgs : List Value)
  | ended (result : Except Failure Value)
  /-- A linker, by its number, put a site in its table. -/
  | published (linker : Nat) (point : UInt64) (site : CallSite)
  /-- A linker, by its number, removed a site from its table. -/
  | forgotten (linker : Nat) (point : UInt64) (site : CallSite)
  | retargeted (site : CallSite) (target : Handle)

/-- The sites that a linker has linked, by the number of the call point. -/
abbrev LinkTable := List (UInt64 × CallSite)

structure State where
  handles : HandleTable
  /-- The fields of each object. -/
  objects : Array (List Value)
  /-- What each throwable has suppressed, in order. -/
  suppressed : Array (List Throwable)
  sites : Array SiteCell
  registries : Array Registry
  caches : Array SharedHandles
  linkers : Array LinkTable
  /-- Counts that host code keeps between its runs. -/
  counters : Array Nat
  /-- The events so far, the latest first. -/
  journal : List Event

/-- The state before anything was made. -/
def State.empty : State := ⟨.empty, #[], #[], #[], #[], #[], #[], #[], []⟩

/-- A computation over the state that may halt. -/
abbrev Exec := ExceptT Halt (StateM State)

namespace Exec

/-- Runs a computation without state. -/
def ofChecked {α : Type} (x : Checked α) : Exec α := fun s => (x, s)

/-- Reports a failure. -/
def refuse {α : Type} (failure : Failure) : Exec α := ofChecked (.refuse failure)

/-- Passes on a result or reports its failure. -/
def ofExcept {α : Type} (x : Except Failure α) : Exec α := ofChecked (.ofExcept x)

/-- Passes on what is there; nothing can be done where nothing is. -/
def ofOption {α : Type} (x : Option α) : Exec α := ofChecked (.ofOption x)

/-- Runs a computation that makes handles. -/
def ofBuild {α : Type} (x : Build α) : Exec α := fun s =>
  let (result, handles) := x s.handles
  (result, { s with handles := handles })

/-- Runs a computation and hands on its failure as a result. Other halts pass through. -/
def attempt {α : Type} (x : Exec α) : Exec (Except Failure α) := fun s =>
  match x s with
  | (.ok a, t) => (.ok (.ok a), t)
  | (.error (.failed failure), t) => (.ok (.error failure), t)
  | (.error .stuck, t) => (.error .stuck, t)
  | (.error .exhausted, t) => (.error .exhausted, t)

/-- Writes an event into the journal. -/
def record (e : Event) : Exec Unit := modify fun s => { s with journal := e :: s.journal }

end Exec

/-! Objects. -/

/-- Makes an object with the given field values, whatever its class declares. -/
def newObject (c : ClassDef) (fields : List Value) : Exec ObjectRef := fun s =>
  (.ok ⟨s.objects.size, c⟩, { s with objects := s.objects.push fields })

namespace State

/-- The field values of an object. -/
def fields (s : State) (o : ObjectRef) : List Value := (s.objects[o.id]?).getD []

/-- The value of one field. -/
def field? (s : State) (o : ObjectRef) (index : Nat) : Option Value := (s.fields o)[index]?

/-- What a throwable has suppressed. -/
def suppressedBy (s : State) (t : Throwable) : List Throwable := (s.suppressed[t.id]?).getD []

/-- What a site holds. -/
def cell? (s : State) (site : CallSite) : Option SiteCell := s.sites[site.id]?

/-- The current target of a site. -/
def target? (s : State) (site : CallSite) : Option Handle := (s.cell? site).bind (·.target)

/-- How often a site was given another target. -/
def generation (s : State) (site : CallSite) : Nat :=
  ((s.cell? site).map (·.generation.toNat)).getD 0

/-- The displayed form of a site. -/
def siteText (s : State) (site : CallSite) : String :=
  "CallSite \x7b kind: " ++ site.kind.text ++ ", signature: " ++ site.signature.label ++
    ", linked: " ++ (if (s.target? site).isSome then "true" else "false") ++ " \x7d"

end State

/-- Stores a value in a field; whether there is such a field. -/
def ObjectRef.setField (o : ObjectRef) (index : Nat) (v : Value) : Exec Bool := fun s =>
  let fields := s.fields o
  if index < fields.length then
    (.ok true, { s with objects := s.objects.setIfInBounds o.id (fields.set index v) })
  else (.ok false, s)

/-! Throwables. -/

/-- Makes a throwable of a class, whatever the class extends. -/
def newThrowable (c : ClassDef) (message : String) : Exec Throwable := fun s =>
  (.ok ⟨s.suppressed.size, c, message⟩, { s with suppressed := s.suppressed.push [] })

/-- Throws a new throwable. -/
def throwNew {α : Type} (c : ClassDef) (message : String) : Exec α := do
  Exec.refuse (.thrown (← newThrowable c message))

/-- Adds a throwable to those that another one has suppressed. -/
def Throwable.suppress (t other : Throwable) : Exec Unit := modify fun s =>
  { s with suppressed := s.suppressed.setIfInBounds t.id (s.suppressedBy t ++ [other]) }

/-- The throwable that stands for a failure: its own, or a new one with its message. -/
def asThrowable : Failure → Exec Throwable
  | .thrown t => pure t
  | failure => newThrowable .invocationFailure failure.message

/-! Call sites. -/

/-- Makes a site. -/
def newSite (kind : SiteKind) (signature : Signature) (target : Option Handle) : Exec CallSite :=
  fun s => (.ok ⟨s.sites.size, kind, signature⟩, { s with sites := s.sites.push ⟨target, 0⟩ })

/-- Makes a site for a target, with the target's signature. -/
def siteFor (kind : SiteKind) (target : Handle) : Exec CallSite :=
  newSite kind target.signature (some target)

namespace CallSite

/-- The current target; a site without one is not linked. -/
def target (site : CallSite) : Exec Handle := do
  match (← get).target? site with
  | some h => return h
  | none => Exec.refuse (.unlinkedCallSite site.signature)

/-- Refuses a target of another signature, and any target for a constant site. -/
def checkRetarget (site : CallSite) (target : Handle) : Except Failure Unit :=
  if site.kind = .constant then .error (.illegalRetarget (.constant site.signature))
  else if target.signature != site.signature then
    .error (.illegalRetarget (.mismatch target.signature site.signature))
  else .ok ()

/-- Puts another target into a site's cell, counts it, and notes it in the journal. -/
def store (site : CallSite) (target : Handle) : Exec Unit := do
  modify fun s =>
    { s with sites := s.sites.modify site.id fun cell => ⟨some target, cell.generation + 1⟩ }
  Exec.record (.retargeted site target)

/-- Gives a site another target with a fenced store, which every thread sees at once. -/
def setTargetFenced (site : CallSite) (target : Handle) : Exec Unit := do
  Exec.ofExcept (site.checkRetarget target)
  site.store target

/-- Gives a site another target with a plain store; a volatile site takes the fenced one anyway. -/
def setTargetPlain (site : CallSite) (target : Handle) : Exec Unit := do
  if site.kind = .volatile then site.setTargetFenced target
  else
    Exec.ofExcept (site.checkRetarget target)
    site.store target

/-- Gives a site another target with the store that its kind prescribes. -/
def setTarget (site : CallSite) (target : Handle) : Exec Unit :=
  match site.kind with
  | .volatile => site.setTargetFenced target
  | .constant | .mutable => site.setTargetPlain target

end CallSite
end TypedHandles
