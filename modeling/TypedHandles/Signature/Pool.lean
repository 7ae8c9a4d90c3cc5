import TypedHandles.Signature

/-!
A pool that keeps one instance of each signature.

The pool is a list of buckets by hash. It works for every hash under which equal signatures agree,
since a bucket is searched by equality; it takes its hash as a field.
-/
namespace TypedHandles

/-- A signature as one instance among equal ones. -/
structure SharedSignature where
  id : Nat
  signature : Signature

/-- Whether two instances are one. -/
def SharedSignature.same (a b : SharedSignature) : Bool := a.id == b.id

/-- Canonical instances, in buckets by the hash of their signature. -/
structure SignaturePool where
  hash : Signature → UInt64
  buckets : List (UInt64 × List SharedSignature)

namespace SignaturePool

/-- The pool without instances that hashes by a given function. -/
def hashedBy (hash : Signature → UInt64) : SignaturePool := ⟨hash, []⟩

/-- The pool without instances. Equal signatures have equal descriptors, whatever their classes
declare, so the hash of the descriptor serves. -/
def empty : SignaturePool := hashedBy fun s => s.descriptor.hash

/-- The instances whose signature has the given hash. -/
def bucket (p : SignaturePool) (h : UInt64) : List SharedSignature :=
  (p.buckets.lookup h).getD []

/-- The canonical instance of a signature. -/
def find? (p : SignaturePool) (s : Signature) : Option SharedSignature :=
  (p.bucket (p.hash s)).find? (·.signature == s)

/-- Adds an instance at the end of its bucket. -/
def add (p : SignaturePool) (s : SharedSignature) : SignaturePool :=
  let h := p.hash s.signature
  { p with buckets := (h, p.bucket h ++ [s]) :: p.buckets.filter (·.1 != h) }

/-- The canonical instance equal to `s`, which is `s` itself if there was none. -/
def intern (p : SignaturePool) (s : SharedSignature) : SharedSignature × SignaturePool :=
  match p.find? s.signature with
  | some canonical => (canonical, p)
  | none => (s, p.add s)

/-- Makes a signature, as an instance under the number `fresh`, and interns it. -/
def make (p : SignaturePool) (fresh : Nat) (ret : Kind) (params : List Kind) :
    Except Failure (SharedSignature × SignaturePool) := do
  let s ← Signature.make ret params
  return p.intern ⟨fresh, s⟩

/-- The number of canonical instances. -/
def size (p : SignaturePool) : Nat := (p.buckets.flatMap (·.2)).length

def isEmpty (p : SignaturePool) : Bool := p.size == 0

/-- Forgets all instances. -/
def clear (p : SignaturePool) : SignaturePool := hashedBy p.hash

end SignaturePool
end TypedHandles
