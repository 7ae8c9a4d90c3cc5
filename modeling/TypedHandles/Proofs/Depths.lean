import TypedHandles.Proofs.Halting
import TypedHandles.Proofs.NamedLoops

/-!
What computations come to when depth is no matter. The machine is cut off at a depth, and a run that
ends under one depth ends so under every greater one; so there is one outcome that all depths agree
on from some depth on, or the run never ends.

A repetition that is bounded by the depth comes to what `Repeats` describes, without any bound.
-/
namespace TypedHandles

variable {α β σ : Type}

/-- The ways a computation may end in, from one state to another. -/
abbrev Outcomes (α : Type) : Type := State → Except Halt α → State → Prop

/-- One computation and another one after it. When the first one halts, both do. -/
def Outcomes.andThen (x : Outcomes α) (f : α → Outcomes β) : Outcomes β := fun s outcome t =>
  (∃ e, outcome = .error e ∧ x s (.error e) t) ∨ ∃ a u, x s (.ok a) u ∧ f a u outcome t

/-- What repetitions come to, after so many next values: they end where the test does not hold, and
the first halt is theirs. -/
inductive Repeats (test : σ → Outcomes Bool) (next : σ → Outcomes σ) :
    Nat → σ → State → Except Halt σ → State → Prop
  | stops {x : σ} {s t : State} : test x s (.ok false) t → Repeats test next 0 x s (.ok x) t
  | testHalts {x : σ} {e : Halt} {s t : State} :
      test x s (.error e) t → Repeats test next 0 x s (.error e) t
  | nextHalts {x : σ} {e : Halt} {s t u : State} :
      test x s (.ok true) t → next x t (.error e) u → Repeats test next 1 x s (.error e) u
  | goesOn {n : Nat} {x y : σ} {outcome : Except Halt σ} {s t u v : State} :
      test x s (.ok true) t → next x t (.ok y) u → Repeats test next n y u outcome v →
      Repeats test next (n + 1) x s outcome v

/-- A sequence with one more item in front of it. -/
def preceded {α : Type} (a : α) (rest : Nat → α) : Nat → α
  | 0 => a
  | k + 1 => rest k

/-- Repetitions that return something go through values of which the test holds, up to one of which
it does not. -/
theorem repeats_ok_iff {test : σ → Outcomes Bool} {next : σ → Outcomes σ} {n : Nat} {x y : σ}
    {s t : State} :
    Repeats test next n x s (.ok y) t ↔ ∃ (xs : Nat → σ) (before after : Nat → State),
      (xs 0 = x ∧ before 0 = s) ∧
      (∀ k < n, test (xs k) (before k) (.ok true) (after k) ∧
        next (xs k) (after k) (.ok (xs (k + 1))) (before (k + 1))) ∧
      test (xs n) (before n) (.ok false) t ∧ y = xs n := by
  constructor
  · intro repeats
    generalize ends : Except.ok y = outcome at repeats
    induction repeats with
    | @stops x s t stops =>
      cases ends
      refine ⟨fun _ => y, fun _ => s, fun _ => t, ⟨rfl, rfl⟩, fun k below => ?_, stops, rfl⟩
      exact absurd below (Nat.not_lt_zero k)
    | testHalts => cases ends
    | nextHalts => cases ends
    | @goesOn n x z _ s t u v holds steps _ ih =>
      obtain ⟨xs, before, after, ⟨rfl, rfl⟩, rounds, stops, last⟩ := ih ends
      refine ⟨preceded x xs, preceded s before, preceded t after, ⟨rfl, rfl⟩, fun k below => ?_,
        stops, last⟩
      cases k with
      | zero => exact ⟨holds, steps⟩
      | succ k => exact rounds k (Nat.lt_of_succ_lt_succ below)
  · rintro ⟨xs, before, after, ⟨rfl, rfl⟩, rounds, stops, rfl⟩
    induction n generalizing xs before after with
    | zero => exact .stops stops
    | succ n ih =>
      obtain ⟨holds, steps⟩ := rounds 0 (Nat.succ_pos n)
      refine .goesOn holds steps ?_
      exact ih (fun k => xs (k + 1)) (fun k => before (k + 1)) (fun k => after (k + 1))
        (fun k below => rounds (k + 1) (Nat.succ_lt_succ below)) stops

namespace Exec

/-- A computation that is given for each depth: under a greater one it does the same, unless it was
cut off. -/
def Deepens (x : Nat → Exec α) : Prop := ∀ n m, n ≤ m → HaltsOr .exhausted (x n) (x m)

/-- What a computation ends in under every depth that is great enough. -/
def ComesTo (x : Nat → Exec α) : Outcomes α := fun s outcome t =>
  outcome ≠ .error .exhausted ∧ ∃ least, ∀ n, least ≤ n → x n s = (outcome, t)

/-- A halt that is not for want of depth is none at any type of results. -/
theorem ne_exhausted {e : Halt} (halts : (.error e : Except Halt α) ≠ .error .exhausted) :
    (.error e : Except Halt β) ≠ .error .exhausted := fun cut => halts (by cases cut; rfl)

variable {x : Nat → Exec α} {f : Nat → α → Exec β}

theorem Deepens.const (x : Exec α) : Deepens fun _ => x := fun _ _ _ => .refl _

theorem Deepens.bind (hx : Deepens x) (hf : ∀ a, Deepens (f · a)) :
    Deepens fun n => x n >>= f n := fun n m le => (hx n m le).bind fun a => hf a n m le

theorem Deepens.front (host : Host) (h : Handle) (args : List Value) :
    Deepens fun n => (runCode host n).front h args := fun _ _ le => runCode_haltsOr host le _ _

theorem Deepens.add (deepens : Deepens x) (k : Nat) : Deepens fun n => x (n + k) :=
  fun n m le => deepens (n + k) (m + k) (Nat.add_le_add_right le k)

/-- What ends under one depth comes to this. -/
theorem Deepens.comesTo (deepens : Deepens x) {n : Nat} {s t : State} {outcome : Except Halt α}
    (ends : x n s = (outcome, t)) (halts : outcome ≠ .error .exhausted) :
    ComesTo x s outcome t := by
  refine ⟨halts, n, fun m le => ?_⟩
  rcases deepens n m le s with cut | same
  · rw [ends] at cut
    exact absurd cut halts
  · exact same.symm.trans ends

/-- Some depth more makes no difference. -/
theorem comesTo_add (x : Nat → Exec α) (k : Nat) : ComesTo (fun n => x (n + k)) = ComesTo x := by
  funext s outcome t
  refine propext (and_congr_right fun _ => ⟨?_, ?_⟩)
  · rintro ⟨least, ends⟩
    refine ⟨least + k, fun n le => ?_⟩
    obtain ⟨m, rfl⟩ := Nat.exists_eq_add_of_le' (Nat.le_trans (Nat.le_add_left k least) le)
    exact ends m (Nat.le_of_add_le_add_right le)
  · rintro ⟨least, ends⟩
    exact ⟨least, fun n le => ends (n + k) (Nat.le_add_right_of_le le)⟩

theorem comesTo_bind (deepens : Deepens x) (f : Nat → α → Exec β) :
    ComesTo (fun n => x n >>= f n) = (ComesTo x).andThen fun a => ComesTo (f · a) := by
  funext s outcome t
  refine propext ⟨?_, ?_⟩
  · rintro ⟨halts, least, ends⟩
    have ends : ∀ n, least ≤ n → (x n >>= f n) s = (outcome, t) := ends
    match first : x least s with
    | (.error e, u) =>
      have here := ends least (Nat.le_refl _)
      rw [bind_of_error first] at here
      cases here
      exact .inl ⟨e, rfl, deepens.comesTo first (ne_exhausted halts)⟩
    | (.ok a, u) =>
      have comes : ComesTo x s (.ok a) u := deepens.comesTo first nofun
      have ⟨_, enough, same⟩ := comes
      refine .inr ⟨a, u, comes, halts, max least enough, fun n le => ?_⟩
      have here := ends n (Nat.le_trans (Nat.le_max_left _ _) le)
      rwa [bind_of_ok (same n (Nat.le_trans (Nat.le_max_right _ _) le))] at here
  · rintro (⟨e, rfl, halts, least, ends⟩ | ⟨a, u, ⟨-, least, ends⟩, halts, enough, same⟩)
    · exact ⟨ne_exhausted halts, least, fun n le => bind_of_error (ends n le)⟩
    · refine ⟨halts, max least enough, fun n le => ?_⟩
      exact (bind_of_ok (ends n (Nat.le_trans (Nat.le_max_left _ _) le))).trans
        (same n (Nat.le_trans (Nat.le_max_right _ _) le))

/-! Repetitions. -/

section

variable {test : σ → Exec Bool} {next : σ → Exec σ} {done : σ → Exec α} {x : σ} {s t : State}

theorem repeatWhile_of_error {e : Halt} (tested : test x s = (.error e, t)) (limit : Nat) :
    repeatWhile test next done (limit + 1) x s = (.error e, t) := bind_of_error tested

theorem repeatWhile_of_false (tested : test x s = (.ok false, t)) (limit : Nat) :
    repeatWhile test next done (limit + 1) x s = done x t := bind_of_ok tested

theorem repeatWhile_of_true (tested : test x s = (.ok true, t)) (limit : Nat) :
    repeatWhile test next done (limit + 1) x s =
      (next x >>= repeatWhile test next done limit) t := bind_of_ok tested

end

section

variable {test : Nat → σ → Exec Bool} {next : Nat → σ → Exec σ}

/-- Repetitions that end within some depth and some number of rounds. -/
theorem repeats_of_repeatWhile (tests : ∀ x, Deepens (test · x)) (nexts : ∀ x, Deepens (next · x))
    {i j limit : Nat} {x : σ} {outcome : Except Halt σ} {s t : State}
    (ends : repeatWhile (test i) (next j) pure limit x s = (outcome, t))
    (halts : outcome ≠ .error .exhausted) :
    ∃ n, Repeats (fun x => ComesTo (test · x)) (fun x => ComesTo (next · x)) n x s outcome t := by
  induction limit generalizing x s with
  | zero =>
    cases ends
    exact absurd rfl halts
  | succ limit ih =>
    match tested : test i x s with
    | (.error e, u) =>
      rw [repeatWhile_of_error tested] at ends
      cases ends
      exact ⟨0, .testHalts ((tests x).comesTo tested (ne_exhausted halts))⟩
    | (.ok false, u) =>
      rw [repeatWhile_of_false tested] at ends
      cases ends
      exact ⟨0, .stops ((tests x).comesTo tested nofun)⟩
    | (.ok true, u) =>
      have holds := (tests x).comesTo tested nofun
      rw [repeatWhile_of_true tested] at ends
      match stepped : next j x u with
      | (.error e, v) =>
        rw [bind_of_error stepped] at ends
        cases ends
        exact ⟨1, .nextHalts holds ((nexts x).comesTo stepped (ne_exhausted halts))⟩
      | (.ok y, v) =>
        rw [bind_of_ok stepped] at ends
        obtain ⟨n, rest⟩ := ih ends
        exact ⟨n + 1, .goesOn holds ((nexts x).comesTo stepped nofun) rest⟩

/-- Repetitions end so within every depth and every number of rounds that are great enough. -/
theorem repeatWhile_of_repeats {n : Nat} {x : σ} {outcome : Except Halt σ} {s t : State}
    (repeats :
      Repeats (fun x => ComesTo (test · x)) (fun x => ComesTo (next · x)) n x s outcome t) :
    outcome ≠ .error .exhausted ∧ ∃ least, ∀ i j limit, least ≤ i → least ≤ j → least ≤ limit →
      repeatWhile (test i) (next j) pure (limit + 1) x s = (outcome, t) := by
  -- Each round adds one to the rounds that are needed, and may ask for more depth.
  induction repeats with
  | stops stops =>
    obtain ⟨-, least, tested⟩ := stops
    exact ⟨nofun, least, fun i _ limit deep _ _ => repeatWhile_of_false (tested i deep) limit⟩
  | testHalts halts =>
    obtain ⟨final, least, tested⟩ := halts
    refine ⟨ne_exhausted final, least, fun i _ limit deep _ _ => ?_⟩
    exact repeatWhile_of_error (tested i deep) limit
  | nextHalts holds halts =>
    obtain ⟨-, least, tested⟩ := holds
    obtain ⟨final, enough, stepped⟩ := halts
    refine ⟨ne_exhausted final, max least enough, fun i j limit deep deep' _ => ?_⟩
    rw [repeatWhile_of_true (tested i (by omega)), bind_of_error (stepped j (by omega))]
  | goesOn holds steps _ ih =>
    obtain ⟨-, least, tested⟩ := holds
    obtain ⟨-, enough, stepped⟩ := steps
    obtain ⟨final, rest, ends⟩ := ih
    refine ⟨final, max (max least enough) (rest + 1), fun i j limit deep deep' rounds => ?_⟩
    obtain ⟨limit, rfl⟩ : ∃ m, limit = m + 1 := Nat.exists_eq_add_one_of_ne_zero (by omega)
    rw [repeatWhile_of_true (tested i (by omega)), bind_of_ok (stepped j (by omega))]
    exact ends i j limit (by omega) (by omega) (by omega)

/-- Repetitions under growing depths come to what is described without any. -/
theorem comesTo_repeatWhile (tests : ∀ x, Deepens (test · x)) (nexts : ∀ x, Deepens (next · x))
    (a b c : Nat) (x : σ) :
    ComesTo (fun n => repeatWhile (test (n + a)) (next (n + b)) pure (n + c) x) =
      fun s outcome t => ∃ n,
        Repeats (fun x => ComesTo (test · x)) (fun x => ComesTo (next · x)) n x s outcome t := by
  funext s outcome t
  refine propext ⟨?_, ?_⟩
  · rintro ⟨halts, least, ends⟩
    exact repeats_of_repeatWhile tests nexts (ends least (Nat.le_refl _)) halts
  · rintro ⟨n, repeats⟩
    obtain ⟨halts, least, ends⟩ := repeatWhile_of_repeats repeats
    refine ⟨halts, least + 1, fun n le => ?_⟩
    obtain ⟨limit, enough⟩ : ∃ m, n + c = m + 1 := Nat.exists_eq_add_one_of_ne_zero (by omega)
    show repeatWhile _ _ _ (n + c) x s = _
    rw [enough]
    exact ends (n + a) (n + b) limit (by omega) (by omega) (by omega)

end

end Exec

/-- What a computation comes to, when the code that it runs may use a host and any depth. -/
abbrev Host.comesTo (host : Host) (x : Runner → Exec α) : Outcomes α :=
  Exec.ComesTo fun n => x (runCode host n)

end TypedHandles
