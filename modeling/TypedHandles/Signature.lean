import TypedHandles.Failure

/-!
Making and editing signatures. `make` is the one gate: it refuses more than 254 parameters and any
`void` parameter, and every edit that can change the list of parameters passes through it.
-/
namespace TypedHandles
namespace Signature

/-- The most parameters that a signature may have. -/
def maxArity : Nat := 254

/-- The greatest position that can be named: positions are 64-bit words. -/
def maxPosition : Nat := UInt64.size - 1

/-- The number of parameters. -/
def arity (s : Signature) : Nat := s.params.length

def returnsVoid (s : Signature) : Bool := s.ret.isVoid

/-- What `make` promises of a signature. -/
structure WellFormed (s : Signature) : Prop where
  arity_le : s.params.length ≤ maxArity
  no_void : ∀ k ∈ s.params, k ≠ .void

/-- The signature of a result kind and parameter kinds, if it is well formed. Too many parameters
are reported before a `void` one, and of several `void` ones the first. -/
def make (ret : Kind) (params : List Kind) : Except Failure Signature :=
  if params.length > maxArity then .error (.tooManyParameters params.length maxArity)
  else
    match params.findIdx? Kind.isVoid with
    | some index => .error (.voidParameter index)
    | none => .ok ⟨ret, params⟩

/-- The same parameters with another result. -/
def changeReturn (s : Signature) (ret : Kind) : Signature := ⟨ret, s.params⟩

/-- Replaces the parameters from `start` up to `stop` by `kinds`. -/
def replaceParams (s : Signature) (start stop : Nat) (kinds : List Kind) :
    Except Failure Signature :=
  if start > stop ∨ stop > s.arity then .error (.illegalArgument (.parameterRange start stop s))
  else make s.ret (s.params.take start ++ kinds ++ s.params.drop stop)

/-- Replaces one parameter. The position after it has to exist as a number as well. -/
def changeParam (s : Signature) (index : Nat) (kind : Kind) : Except Failure Signature :=
  if index < maxPosition then s.replaceParams index (index + 1) [kind]
  else .error (.illegalArgument (.parameterIndex index s))

/-- Removes the parameters from `start` up to `stop`. -/
def dropParams (s : Signature) (start stop : Nat) : Except Failure Signature :=
  s.replaceParams start stop []

/-- Inserts parameters before a position. -/
def insertParams (s : Signature) (pos : Nat) (kinds : List Kind) : Except Failure Signature :=
  s.replaceParams pos pos kinds

/-- Adds parameters at the end. -/
def appendParams (s : Signature) (kinds : List Kind) : Except Failure Signature :=
  s.insertParams s.arity kinds

/-- The parameters from a position on; none from beyond the end. -/
def paramsFrom (s : Signature) (start : Nat) : List Kind := s.params.drop start

/-- Whether the parameters begin with the given kinds. -/
def startsWith (s : Signature) (kinds : List Kind) : Bool := kinds.isPrefixOf s.params

/-- Every reference kind replaced by `Object`. -/
def erase (s : Signature) : Signature := ⟨s.ret.erase, s.params.map Kind.erase⟩

theorem make_eq_ok_iff {ret : Kind} {params : List Kind} {s : Signature} :
    make ret params = .ok s ↔ s = ⟨ret, params⟩ ∧ s.WellFormed := by
  unfold make
  split
  · next h =>
    constructor
    · intro e
      cases e
    · rintro ⟨rfl, wf⟩
      exact absurd wf.arity_le (Nat.not_le.2 h)
  · next h =>
    split
    · next index found =>
      constructor
      · intro e
        cases e
      · rintro ⟨rfl, wf⟩
        obtain ⟨inside, void, -⟩ := List.findIdx?_eq_some_iff_getElem.1 found
        exact absurd (Kind.isVoid_iff.1 void) (wf.no_void _ (List.getElem_mem inside))
    · next found =>
      constructor
      · intro e
        cases e
        exact ⟨rfl, Nat.not_lt.1 h, fun k hk e => by
          have := List.findIdx?_eq_none_iff.1 found k hk
          simp [e, Kind.isVoid] at this⟩
      · rintro ⟨rfl, -⟩
        rfl

end Signature
end TypedHandles
