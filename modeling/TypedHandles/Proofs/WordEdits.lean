import TypedHandles.Proofs.Refusal
import TypedHandles.Handle.Construction

/-!
Positions as machine words. `Signature.replaceParams` and the adapters count in exact numbers; here
the same edits of a signature are written with the arithmetic of a 64-bit machine, in which a sum
that wraps, a difference below zero, an item or a range beyond a list, and a list longer than any
memory all end the computation without an answer (`Halt.stuck`).

`Answers` says that this never happens: the machine's computation is the exact one, and that ends
with a result or with a failure that it reports.
-/
namespace TypedHandles

/-! Arithmetic that can go wrong. -/

namespace Word

variable {α : Type}

def add (a b : Nat) : Checked Nat := if a + b < UInt64.size then .ok (a + b) else .error .stuck

def sub (a b : Nat) : Checked Nat := if b ≤ a then .ok (a - b) else .error .stuck

/-- The item of a list at a position. -/
def item (xs : List α) (i : Nat) : Checked α := Checked.ofOption xs[i]?

/-- The items of a list from one position up to another. -/
def slice (xs : List α) (start stop : Nat) : Checked (List α) :=
  Checked.ofOption (slice? xs start stop)

/-- Takes the memory for a list of kinds. -/
def reserve (length : Nat) : Checked Unit :=
  if length ≤ Blueprint.longestKindList then .ok () else .error .stuck

/-- The slots of arguments in a frame of the given arity. -/
def arguments (arity start stop : Nat) : Checked (List Slot) :=
  if stop ≤ arity then .ok (Program.slots start stop) else .error .stuck

variable {a b i start stop length arity : Nat} {xs : List α}

theorem add_of_lt (small : a + b < UInt64.size) : add a b = .ok (a + b) := if_pos small

theorem sub_of_le (ordered : b ≤ a) : sub a b = .ok (a - b) := if_pos ordered

theorem item_of_lt (inside : i < xs.length) : item xs i = .ok xs[i] := by
  rw [item, List.getElem?_eq_getElem inside]
  rfl

theorem slice_of_le (ordered : start ≤ stop) (inside : stop ≤ xs.length) :
    slice xs start stop = .ok ((xs.drop start).take (stop - start)) := by
  rw [slice, slice?, if_pos ⟨ordered, inside⟩]
  rfl

theorem slice_take (inside : stop ≤ xs.length) : slice xs 0 stop = .ok (xs.take stop) := by
  rw [slice_of_le (Nat.zero_le _) inside, List.drop_zero, Nat.sub_zero]

theorem slice_drop (inside : start ≤ xs.length) :
    slice xs start xs.length = .ok (xs.drop start) := by
  rw [slice_of_le inside (Nat.le_refl _), List.take_of_length_le (Nat.le_of_eq List.length_drop)]

theorem reserve_of_le (fits : length ≤ Blueprint.longestKindList) : reserve length = .ok () :=
  if_pos fits

theorem arguments_of_le (inside : stop ≤ arity) :
    arguments arity start stop = .ok (Program.slots start stop) := if_pos inside

end Word

theorem Signature.WellFormed.arity_lt {s : Signature} (wf : s.WellFormed) : s.arity < 255 :=
  Nat.lt_succ_of_le wf.arity_le

/-! Answers. -/

/-- A halt that reports a failure. -/
def Halt.IsFailure (e : Halt) : Prop := ∃ failure, e = .failed failure

/-- The computation of the machine is the exact one, and it ends with a result of which `P` holds or
reports a failure. -/
structure Answers {α : Type} (P : α → Prop) (word exact : Checked α) : Prop where
  eq : word = exact
  ends : Ends Halt.IsFailure P exact

namespace Answers

variable {α β : Type} {P Q : α → Prop} {R : β → Prop} {x y : Checked α} {f g : α → Checked β}

theorem refuse (failure : Failure) :
    Answers P (Checked.refuse failure) (Checked.refuse failure) := ⟨rfl, failure, rfl⟩

theorem ok {a : α} (here : P a) : Answers P (.ok a) (.ok a) := ⟨rfl, here⟩

theorem imp (h : Answers P x y) (weaker : ∀ a, P a → Q a) : Answers Q x y :=
  ⟨h.eq, h.ends.imp weaker⟩

theorem ofExcept {x : Except Failure α} {E : Failure → Prop} (h : Ends E P x) :
    Answers P (Checked.ofExcept x) (Checked.ofExcept x) := by
  cases x with
  | ok a => exact ok h
  | error failure => exact refuse failure

theorem bind (first : Answers P x y) (next : ∀ a, P a → Answers R (f a) (g a)) :
    Answers R (x >>= f) (y >>= g) := by
  obtain ⟨rfl, ends⟩ := first
  cases x with
  | ok a => exact next a ends
  | error e => exact ⟨rfl, ends⟩

/-- A step that only the machine takes. -/
theorem wordStep {a : α} {z : Checked β} (done : x = .ok a) (next : Answers R (f a) z) :
    Answers R (x >>= f) z := by
  rw [done]
  exact next

/-- A step that only the exact computation takes. -/
theorem exactStep {a : α} {z : Checked β} (done : y = .ok a) (next : Answers R z (g a)) :
    Answers R z (y >>= g) := by
  rw [done]
  exact next

/-- The same check in front of both: nothing follows where it refuses. -/
theorem check {c : Prop} [Decidable c] {failure : Failure} {next next' : Unit → Checked β}
    (passed : ¬ c → Answers R (next ()) (next' ())) :
    Answers R (if c then (do let r ← Checked.refuse failure; next r) else next ())
      (if c then (do let r ← Checked.refuse failure; next' r) else next' ()) := by
  by_cases h : c
  · rw [if_pos h, if_pos h]
    exact refuse failure
  · rw [if_neg h, if_neg h]
    exact passed h

end Answers

/-! Edits of signatures. -/

namespace Word

open Signature (maxArity)
open Blueprint (longestKindList)

/-- Replaces the parameters from `start` up to `stop` by `kinds`. -/
def replaceParams (s : Signature) (start stop : Nat) (kinds : List Kind) : Checked Signature := do
  if start > stop ∨ stop > s.arity then
    Checked.refuse (.illegalArgument (.parameterRange start stop s))
  let removed ← sub stop start
  let kept ← sub s.arity removed
  let capacity ← add kept kinds.length
  reserve capacity
  let front ← slice s.params 0 start
  let back ← slice s.params stop s.arity
  Checked.ofExcept (Signature.make s.ret (front ++ kinds ++ back))

/-- Replaces one parameter. -/
def changeParam (s : Signature) (index : Nat) (kind : Kind) : Checked Signature :=
  if index + 1 < UInt64.size then replaceParams s index (index + 1) [kind]
  else Checked.refuse (.illegalArgument (.parameterIndex index s))

/-- Removes the parameters from `start` up to `stop`. -/
def dropParams (s : Signature) (start stop : Nat) : Checked Signature :=
  replaceParams s start stop []

/-- Inserts parameters before a position. -/
def insertParams (s : Signature) (pos : Nat) (kinds : List Kind) : Checked Signature :=
  replaceParams s pos pos kinds

/-- What is known of an edited signature. -/
def Edited (s : Signature) (start stop : Nat) (kinds : List Kind) (t : Signature) : Prop :=
  start ≤ stop ∧ stop ≤ s.arity ∧ t.arity = start + kinds.length + (s.arity - stop) ∧ t.WellFormed

variable {s : Signature} {start stop pos index : Nat} {kinds : List Kind}

theorem replaceParams_answers
    (fits : s.arity - (stop - start) + kinds.length ≤ longestKindList) :
    Answers (Edited s start stop kinds) (replaceParams s start stop kinds)
      (Checked.ofExcept (s.replaceParams start stop kinds)) := by
  unfold replaceParams Signature.replaceParams
  by_cases illegal : start > stop ∨ stop > s.arity
  · rw [if_pos illegal, if_pos illegal]
    exact .refuse _
  · rw [if_neg illegal, if_neg illegal]
    have small : longestKindList < UInt64.size := by decide
    have back : stop ≤ s.params.length := by
      unfold Signature.arity at illegal
      omega
    have front : start ≤ s.params.length := by omega
    refine .wordStep (sub_of_le (by omega)) ?_
    refine .wordStep (sub_of_le (by omega)) ?_
    refine .wordStep (add_of_lt (by omega)) ?_
    refine .wordStep (reserve_of_le fits) ?_
    refine .wordStep (slice_take front) ?_
    refine .wordStep (slice_drop back) ?_
    refine (Answers.ofExcept (Signature.make_ends _ _)).imp fun t => ?_
    rintro ⟨rfl, made⟩
    refine ⟨by omega, by omega, ?_, made⟩
    simp only [Signature.arity, List.length_append, List.length_take, List.length_drop]
    omega

/-- A list that is longer than any is not made. -/
theorem replaceParams_of_many (ordered : start ≤ stop) (inside : stop ≤ s.arity)
    (many : longestKindList < s.arity - (stop - start) + kinds.length) :
    replaceParams s start stop kinds = .error .stuck := by
  unfold replaceParams
  rw [if_neg (by omega)]
  show (sub stop start >>= _) = _
  rw [sub_of_le ordered]
  show (sub s.arity (stop - start) >>= _) = _
  rw [sub_of_le (by omega)]
  show (add (s.arity - (stop - start)) kinds.length >>= _) = _
  by_cases small : s.arity - (stop - start) + kinds.length < UInt64.size
  · rw [add_of_lt small]
    show (reserve (s.arity - (stop - start) + kinds.length) >>= _) = _
    rw [reserve, if_neg (Nat.not_le.2 many)]
    rfl
  · rw [add, if_neg small]
    rfl

/-- Few kinds fit. -/
theorem replaceParams_answers_few (wf : s.WellFormed) (few : kinds.length ≤ maxArity) :
    Answers (Edited s start stop kinds) (replaceParams s start stop kinds)
      (Checked.ofExcept (s.replaceParams start stop kinds)) := by
  have room : maxArity + maxArity ≤ longestKindList := by decide
  have := wf.arity_le
  refine replaceParams_answers ?_
  unfold Signature.arity
  omega

theorem changeParam_answers (wf : s.WellFormed) (kind : Kind) :
    Answers (fun _ => True) (changeParam s index kind)
      (Checked.ofExcept (s.changeParam index kind)) := by
  unfold changeParam Signature.changeParam
  by_cases small : index + 1 < UInt64.size
  · have inside : index < Signature.maxPosition := Nat.lt_sub_of_add_lt small
    have one : [kind].length ≤ maxArity := Nat.le_add_left 1 253
    rw [if_pos small, if_pos inside]
    exact (replaceParams_answers_few wf one).imp fun _ _ => trivial
  · have outside : ¬ index < Signature.maxPosition := fun h => small (Nat.add_lt_of_lt_sub h)
    rw [if_neg small, if_neg outside]
    exact .refuse _

end Word
end TypedHandles
