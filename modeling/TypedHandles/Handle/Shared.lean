import TypedHandles.Handle.Elementary
import TypedHandles.Value.Key

/-!
Constant and identity handles that are shared. A constant is shared by the kind of its slot, the
kind of the fitted value and the key of the value, so values that print alike but differ in kind or
bits are kept apart; a value without a key gets a fresh handle each time.
-/
namespace TypedHandles

/-- What a shared constant is found by: slot kind, value kind and key. -/
abbrev SharedConstant := Kind × Kind × ValueKey

structure SharedHandles where
  constants : List (SharedConstant × Handle)
  identities : List (Kind × Handle)

namespace SharedHandles

def empty : SharedHandles := ⟨[], []⟩

/-- The number of shared handles. -/
def size (c : SharedHandles) : Nat := c.constants.length + c.identities.length

def isEmpty (c : SharedHandles) : Bool := c.size == 0

/-- The handle `() -> kind` that returns a value, shared where the value has a key. -/
def constant (c : SharedHandles) (kind : Kind) (value : Value) :
    Build (Handle × SharedHandles) := do
  let value ← Build.ofChecked (Checked.ofExcept (value.coerce kind))
  match value.key? with
  | none => return (← Build.accept (Blueprint.constant kind value), c)
  | some key =>
    let key := (kind, value.kind, key)
    match c.constants.lookup key with
    | some shared => return (shared, c)
    | none =>
      let created ← Build.accept (Blueprint.constant kind value)
      return (created, { c with constants := (key, created) :: c.constants })

/-- The shared identity handle of a kind. -/
def identity (c : SharedHandles) (kind : Kind) : Build (Handle × SharedHandles) := do
  match c.identities.lookup kind with
  | some shared => return (shared, c)
  | none =>
    let created ← Build.accept (Blueprint.identity kind)
    return (created, { c with identities := (kind, created) :: c.identities })

end SharedHandles
end TypedHandles
