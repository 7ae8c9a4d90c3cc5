import TypedHandles.Member.Lookup
import TypedHandles.Linker.Switches

/-!
Linkers: which call site stands behind a call point. A bootstrap is run for a point that is not
linked yet; the site that it returns is checked and then published, once.

The bootstrap is a computation here, so it may itself use the linker; whatever it publishes for the
same point first is what the outer link returns.
-/
namespace TypedHandles

/-- What a bootstrap is told about a call point. -/
structure Descriptor where
  name : String
  signature : Signature
  staticArgs : List Value

/-- The displayed form of a call point with the given number. -/
def Descriptor.text (id : UInt64) (d : Descriptor) : String :=
  "DynamicCallPoint \x7b id: CallPointId(" ++ toString id.toNat ++ "), name: " ++
    Text.Quoted.quote d.name ++ ", signature: " ++ d.signature.label ++ " \x7d"

/-- A linker: its number, the lookup that it hands to bootstraps, and its switches. -/
structure Linker where
  id : Nat
  lookup : Lookup
  config : LinkerSwitches

/-- Makes a linker that has linked nothing. -/
def newLinker (lookup : Lookup) (config : LinkerSwitches) : Exec Linker := fun s =>
  (.ok ⟨s.linkers.size, lookup, config⟩, { s with linkers := s.linkers.push [] })

namespace Linker

/-- The sites that a linker has linked. -/
def table (s : State) (l : Linker) : LinkTable := (s.linkers[l.id]?).getD []

/-- The site of a point, if it is linked. -/
def linked? (s : State) (l : Linker) (point : UInt64) : Option CallSite := (l.table s).lookup point

/-- The displayed form of a linker. -/
def text (s : State) (l : Linker) : String :=
  "Linker \x7b lookup: " ++ l.lookup.text ++ ", config: " ++ l.config.text ++ ", linked: " ++
    toString (l.table s).length ++ " \x7d"

/-- Requires a call site or a handle to have the signature of its call point. -/
def checkSignature (d : Descriptor) (found : Signature) : Except Failure Unit :=
  if found != d.signature then .error (.signatureMismatch d.signature found) else .ok ()

/-- The failure of a link whose bootstrap failed. A fatal failure is not wrapped. -/
def bootstrapFailure (d : Descriptor) (cause : Failure) : Failure :=
  if cause.isFatal then cause else .bootstrapLinkage d.name cause

/-- The site that a bootstrap's result stands for. -/
def accept (l : Linker) (d : Descriptor) (result : Value) : Exec CallSite := do
  match result with
  | .callSite site =>
    Exec.ofExcept (checkSignature d site.signature)
    return site
  | .handle h =>
    if l.config.allowHandleResults then
      Exec.ofExcept (checkSignature d h.signature)
      siteFor .constant h
    else Exec.refuse (.bootstrapProtocol d.name result.typeName)
  | other => Exec.refuse (.bootstrapProtocol d.name other.typeName)

/-- Runs a bootstrap and checks what it returns. Nothing is published. -/
def resolve (l : Linker) (d : Descriptor) (bootstrap : Exec Value) : Exec CallSite := do
  match ← bootstrap.attempt with
  | .ok result => l.accept d result
  | .error cause => Exec.refuse (bootstrapFailure d cause)

/-- Publishes a site for a point, unless there is one by now; yields the one that is there then. -/
def publish (l : Linker) (point : UInt64) (site : CallSite) : Exec CallSite := fun s =>
  match l.linked? s point with
  | some published => (.ok published, s)
  | none =>
    (.ok site, { s with
      linkers := s.linkers.modify l.id ((point, site) :: ·)
      journal := .published l.id point site :: s.journal })

/-- The site of a point, which is linked now if it was not. -/
def link (l : Linker) (point : UInt64) (d : Descriptor) (bootstrap : Exec Value) :
    Exec CallSite := do
  match l.linked? (← get) point with
  | some site => return site
  | none => l.publish point (← l.resolve d bootstrap)

/-- Forgets the site of a point, if it is linked; yields it. -/
def unregister (l : Linker) (point : UInt64) : Exec (Option CallSite) := fun s =>
  match l.linked? s point with
  | some site =>
    (.ok (some site), { s with
      linkers := s.linkers.modify l.id (·.filter (·.1 != point))
      journal := .forgotten l.id point site :: s.journal })
  | none => (.ok none, s)

end Linker
end TypedHandles
