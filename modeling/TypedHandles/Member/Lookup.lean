import TypedHandles.Machine.State

/-!
Lookups: the right to build member handles on behalf of one caller. A lookup asks its gate first, if
it has one, then resolves the request, then compares the shape of what was found.
-/
namespace TypedHandles

/-- Decides on a request of a caller, before anything is resolved. -/
abbrev Gate := String → MemberRequest → Except Failure Unit

/-- A caller, the number of the registry that it resolves against, its gate, and the number of its
cache. -/
structure Lookup where
  caller : String
  registry : Nat
  gate : Option Gate
  cache : Nat

/-- Makes an empty registry; yields its number. -/
def newRegistry : Exec Nat := fun s =>
  (.ok s.registries.size, { s with registries := s.registries.push .empty })

/-- Registers a static function with a registry. -/
def registerStatic (registry : Nat) (owner name : String) (member : StaticMember) : Exec Unit :=
  modify fun s =>
    { s with registries := s.registries.modify registry (·.registerStatic owner name member) }

/-- Registers a class with a registry. -/
def registerClass (registry : Nat) (c : ClassDef) : Exec Unit :=
  modify fun s => { s with registries := s.registries.modify registry (·.registerClass c) }

/-- Makes an empty cache; yields its number. -/
def newCache : Exec Nat := fun s =>
  (.ok s.caches.size, { s with caches := s.caches.push .empty })

/-- Runs an operation on a cache that may make a handle, and keeps the new cache. -/
def withCache (cache : Nat) (f : SharedHandles → Build (Handle × SharedHandles)) : Exec Handle := do
  let found ← Exec.ofOption (← get).caches[cache]?
  let (h, updated) ← Exec.ofBuild (f found)
  modify fun s => { s with caches := s.caches.setIfInBounds cache updated }
  return h

/-- The constant handle of a value, from a cache. -/
def cachedConstant (cache : Nat) (kind : Kind) (value : Value) : Exec Handle :=
  withCache cache (·.constant kind value)

/-- The identity handle of a kind, from a cache. -/
def cachedIdentity (cache : Nat) (kind : Kind) : Exec Handle := withCache cache (·.identity kind)

/-- Forgets all handles of a cache. -/
def clearCache (cache : Nat) : Exec Unit :=
  modify fun s => { s with caches := s.caches.setIfInBounds cache .empty }

namespace Lookup

/-- The same rights on behalf of another caller. -/
def inCaller (l : Lookup) (caller : String) : Lookup := { l with caller := caller }

def withGate (l : Lookup) (gate : Gate) : Lookup := { l with gate := some gate }

def withCache (l : Lookup) (cache : Nat) : Lookup := { l with cache := cache }

/-- The displayed form. -/
def text (l : Lookup) : String :=
  "Lookup \x7b caller: " ++ Text.Quoted.quote l.caller ++ ", gated: " ++
    (if l.gate.isSome then "true" else "false") ++ " \x7d"

/-- Asks the gate. -/
def checkGate (l : Lookup) (request : MemberRequest) : Exec Unit := do
  if let some gate := l.gate then
    Exec.record (.gate l.caller request)
    Exec.ofExcept (gate l.caller request)

/-- The handle of the member that a request names. -/
def find (l : Lookup) (request : MemberRequest) : Exec Handle := do
  l.checkGate request
  let registry ← Exec.ofOption (← get).registries[l.registry]?
  let member ← Exec.ofExcept (registry.resolve l.caller request)
  if let some expected := request.signature then
    if member.signature != expected then
      Exec.refuse (.noSuchMember request.owner (request.name ++ expected.descriptor))
  Exec.ofBuild (Blueprint.ofAction member.signature member.action).make

/-- The handle of a member of a wanted shape. -/
def findMember (l : Lookup) (query : MemberQuery) : Exec Handle := do
  let h ← l.find query.request
  if !query.accepts h.signature then Exec.refuse query.mismatch
  return h

/-- The constant handle of a value, from the lookup's cache. -/
def constant (l : Lookup) (kind : Kind) (value : Value) : Exec Handle :=
  cachedConstant l.cache kind value

end Lookup
end TypedHandles
