import Mathlib.Data.List.Forall2
import TypedHandles.Proofs.Conversion
import TypedHandles.Handle.Elementary
import TypedHandles.Handle.Arguments

/-!
How checked computations end: with a result of which something is known, or with an error of a given
sort. Whatever is refused ahead of any call is refused for the kinds and the shapes at hand, so such
a failure is static: nothing was thrown, and the host did not give up.
-/
namespace TypedHandles

/-- Whether a failure is the library's own: it carries no throwable and is not fatal. -/
def Failure.isStatic : Failure → Bool
  | .thrown _ | .fatal _ => false
  | _ => true

/-- A halt that reports no failure but a static one. -/
def Halt.IsStatic : Halt → Prop
  | .failed f => f.isStatic = true
  | .stuck | .exhausted => True

theorem Failure.thrown?_of_isStatic {f : Failure} (h : f.isStatic = true) : f.thrown? = none := by
  cases f <;> first | rfl | cases h

/-- A computation ends with a result of which `Q` holds or with an error of which `E` does. -/
def Ends {ε α : Type} (E : ε → Prop) (Q : α → Prop) : Except ε α → Prop
  | .ok a => Q a
  | .error e => E e

namespace Ends

variable {ε α β : Type} {E : ε → Prop} {P Q : α → Prop} {R : β → Prop}

theorem bind {x : Except ε α} {f : α → Except ε β} (hx : Ends E P x)
    (hf : ∀ a, P a → Ends E R (f a)) : Ends E R (x >>= f) := by
  cases x with
  | ok a => exact hf a hx
  | error e => exact hx

theorem imp {x : Except ε α} (h : Ends E P x) (weaker : ∀ a, P a → Q a) : Ends E Q x := by
  cases x with
  | ok a => exact weaker a h
  | error e => exact h

theorem of_eq_ok {x : Except ε α} {a : α} (h : Ends E Q x) (done : x = .ok a) : Q a := by
  rw [done] at h
  exact h

theorem of_eq_error {x : Except ε α} {e : ε} (h : Ends E Q x) (done : x = .error e) : E e := by
  rw [done] at h
  exact h

/-- What is known of results can be taken down together with the result. -/
theorem intro {x : Except ε α} (error : ∀ e, x = .error e → E e) (ok : ∀ a, x = .ok a → Q a) :
    Ends E Q x := by
  cases h : x with
  | ok a => exact ok a h
  | error e => exact error e h

/-- A check in front of a computation: nothing follows where it refuses. -/
theorem check {c : Prop} [Decidable c] {H : Halt → Prop} {failure : Failure} {Q : β → Prop}
    {next : Unit → Checked β} (refused : H (.failed failure))
    (passed : ¬ c → Ends H Q (next ())) :
    Ends H Q (if c then (do let r ← Checked.refuse failure; next r) else next ()) := by
  by_cases h : c
  · rw [if_pos h]
    exact refused
  · rw [if_neg h]
    exact passed h

/-- The same in front of a computation that can only fail. -/
theorem checkFailure {c : Prop} [Decidable c] {failure : Failure} {Q : β → Prop}
    {next : Unit → Except Failure β} (refused : failure.isStatic = true)
    (passed : ¬ c → Ends (·.isStatic = true) Q (next ())) :
    Ends (·.isStatic = true) Q
      (if c then (do let r ← throw failure; next r) else next ()) := by
  by_cases h : c
  · rw [if_pos h]
    exact refused
  · rw [if_neg h]
    exact passed h

theorem ofExcept {x : Except Failure α} (h : Ends (·.isStatic = true) Q x) :
    Ends Halt.IsStatic Q (Checked.ofExcept x) := by
  cases x with
  | ok a => exact h
  | error f => exact h

theorem ofOption {x : Option α} (h : ∀ a, x = some a → Q a) :
    Ends Halt.IsStatic Q (Checked.ofOption x) := by
  cases x with
  | some a => exact h a rfl
  | none => trivial

end Ends

theorem Kind.eq_arrayOf_of_element? {k element : Kind} (h : k.element? = some element) :
    k = .arrayOf element := by
  unfold element? at h
  split at h <;> cases h
  rfl

theorem length_le_of_isPrefixOf {α : Type} [BEq α] {xs ys : List α}
    (h : xs.isPrefixOf ys = true) : xs.length ≤ ys.length := by
  induction xs generalizing ys with
  | nil => exact Nat.zero_le _
  | cons x xs ih =>
    cases ys with
    | nil => cases h
    | cons y ys =>
      rw [List.isPrefixOf, Bool.and_eq_true] at h
      exact Nat.succ_le_succ (ih h.2)

/-- A slice of a list is a part of it. -/
theorem slice?_split {α : Type} {xs mid : List α} {start count : Nat}
    (h : slice? xs start (start + count) = some mid) :
    ∃ front back, xs.take start = front ∧ xs.drop (start + count) = back ∧
      xs = front ++ mid ++ back ∧ front.length = start ∧ mid.length = count := by
  unfold slice? at h
  split at h
  · next inside =>
    cases h
    have split := List.take_append_drop count (xs.drop start)
    rw [List.drop_drop] at split
    refine ⟨_, _, rfl, rfl, ?_, ?_, ?_⟩
    · rw [Nat.add_sub_cancel_left, List.append_assoc, split, List.take_append_drop]
    · rw [List.length_take]
      omega
    · rw [List.length_take, List.length_drop]
      omega
  · cases h

theorem mapM_ends {ε α β : Type} {E : ε → Prop} {f : α → Except ε β} {xs : List α}
    (h : ∀ a ∈ xs, Ends E (fun _ => True) (f a)) :
    Ends E (List.Forall₂ (fun a b => f a = .ok b) xs) (xs.mapM f) := by
  induction xs with
  | nil => exact .nil
  | cons a rest ih =>
    rw [List.mapM_cons]
    refine Ends.bind (P := fun b => f a = .ok b) ?_ fun b hb => ?_
    · exact Ends.intro (fun e he => (h a (by simp)).of_eq_error he) fun b hb => hb
    · refine (ih fun x hx => h x (List.mem_cons_of_mem a hx)).bind fun bs hbs => ?_
      exact .cons hb hbs

/-- A loop that checks one item after the other checks them all. -/
theorem forIn_ends {ε α : Type} {E : ε → Prop} {P : α → Prop} {xs : List α}
    {f : α → Except ε (ForInStep PUnit)}
    (h : ∀ a ∈ xs, Ends E (fun step => step = .yield ⟨⟩ ∧ P a) (f a)) :
    Ends E (fun _ => ∀ a ∈ xs, P a) (forIn xs PUnit.unit fun a _ => f a) := by
  induction xs with
  | nil => exact List.forall_mem_nil P
  | cons a rest ih =>
    rw [List.forIn_cons]
    refine (h a (by simp)).bind fun step => ?_
    rintro ⟨rfl, here⟩
    refine (ih fun b hb => h b (List.mem_cons_of_mem a hb)).imp fun _ others => ?_
    exact List.forall_mem_cons.2 ⟨here, others⟩

theorem castFails_isStatic {x : Except Failure Value} {Q : Value → Prop}
    (h : (∃ w, x = .ok w) ∨ Value.CastFails x) (ok : ∀ w, x = .ok w → Q w) :
    Ends (·.isStatic = true) Q x := by
  rcases h with ⟨w, rfl⟩ | ⟨found, wanted, rfl⟩
  · exact ok w rfl
  · rfl

namespace Value

theorem coerce_ends (v : Value) (k : Kind) :
    Ends (·.isStatic = true) (fun w => v.coerce k = .ok w) (v.coerce k) := by
  refine Ends.intro (fun e h => ?_) fun _ h => h
  unfold coerce at h
  split at h
  · cases h
    rfl
  · exact (castFails_isStatic (unbox_eq_ok_or_castFails v _) fun _ _ => trivial).of_eq_error h
  · split at h
    · split at h
      · exact (castFails_isStatic (widen_eq_ok_or_castFails v _) fun _ _ => trivial).of_eq_error h
      · cases h
        rfl
    · exact (castFails_isStatic (checkCast_eq_ok_or_castFails v _) fun _ _ => trivial).of_eq_error h

theorem convert_ends (v : Value) (source target : Kind) :
    Ends (·.isStatic = true) (fun w => v.convert source target = .ok w)
      (v.convert source target) :=
  castFails_isStatic (convert_eq_ok_or_castFails v source target) fun _ h => h

end Value

namespace Signature

theorem make_ends (ret : Kind) (params : List Kind) :
    Ends (·.isStatic = true) (fun s => s = ⟨ret, params⟩ ∧ s.WellFormed) (make ret params) := by
  refine Ends.intro (fun e h => ?_) fun s h => make_eq_ok_iff.1 h
  unfold make at h
  split at h
  · cases h
    rfl
  · split at h <;> cases h
    rfl

theorem replaceParams_ends (s : Signature) (start stop : Nat) (kinds : List Kind) :
    Ends (·.isStatic = true)
      (fun t => start ≤ stop ∧ stop ≤ s.arity ∧
        t = ⟨s.ret, s.params.take start ++ kinds ++ s.params.drop stop⟩ ∧ t.WellFormed)
      (s.replaceParams start stop kinds) := by
  unfold replaceParams
  split
  · rfl
  · next inside =>
    refine (make_ends _ _).imp fun t h => ⟨?_, ?_, h⟩ <;> omega

end Signature

namespace Blueprint

theorem elementOf_ends (array : Kind) :
    Ends (·.isStatic = true) (fun element => array = .arrayOf element) (elementOf array) := by
  unfold elementOf
  split
  · next element h => exact Kind.eq_arrayOf_of_element? h
  · rfl

theorem requirePositions_ends (s : Signature) (pos count : Nat) :
    Ends Halt.IsStatic (fun _ => pos + count ≤ s.arity) (requirePositions s pos count) := by
  unfold requirePositions
  split
  · rfl
  · show pos + count ≤ s.arity
    omega

end Blueprint
end TypedHandles
