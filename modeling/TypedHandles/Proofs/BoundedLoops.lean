import Mathlib.Data.Int.Range
import TypedHandles.Proofs.Adapting

/-!
Bounded loops. `boundedLoop` computes a bound, a variable and a first number once, and then runs a
body for each number from the first one up to the bound, over all integers.

A counted loop has three clauses: the bound, the variable of the body, and a counter with a
comparison. Its frame holds the bound, the variable unless it is `void`, the counter, and the
arguments. Where its functions do on such frames what they are made for, its rounds are those of a
bounded loop: the counter would wrap at the end of its range, but it never gets there.
-/
namespace TypedHandles

/-! Numbers from one bound up to another. -/

section

variable {first bound : Int32}

/-- A number below another one is followed by the next integer. -/
theorem toInt_add_one_of_lt (below : first < bound) : (first + 1).toInt = first.toInt + 1 := by
  have lt := Int32.lt_iff_toInt_lt.1 below
  have limit := bound.toInt_lt
  have least := first.le_toInt
  rw [Int32.toInt_add, Int32.toInt_one]
  exact Int.bmod_eq_of_le (by omega) (by omega)

/-- Every integer between two numbers is a number. -/
theorem toInt_ofInt_of_mem_range {i : Int} (mem : i ∈ Int.range first.toInt bound.toInt) :
    (Int32.ofInt i).toInt = i := by
  obtain ⟨from_first, below⟩ := Int.mem_range_iff.1 mem
  have limit := bound.toInt_lt
  have least := first.le_toInt
  exact Int32.toInt_ofInt_of_le (by omega) (by omega)

theorem range_of_lt {i j : Int} (below : i < j) : Int.range i j = i :: Int.range (i + 1) j := by
  have count : (j - i).toNat = (j - (i + 1)).toNat + 1 := by omega
  unfold Int.range
  rw [count, List.range_succ_eq_map, List.map_cons, List.map_map]
  refine congrArg₂ List.cons (by simp) (List.map_congr_left fun k _ => ?_)
  show i + ((k + 1 : Nat) : Int) = i + 1 + k
  omega

theorem range_of_le {i j : Int} (above : j ≤ i) : Int.range i j = [] := by
  have none : (j - i).toNat = 0 := by omega
  unfold Int.range
  rw [none]
  rfl

end

/-- The integers from one value up to another. There are none where a value is no number. -/
def Value.upTo : Value → Value → List Int
  | .int first, .int bound => Int.range first.toInt bound.toInt
  | _, _ => []

/-- Whether one value is a number below another one. -/
def Value.isBelow : Value → Value → Bool
  | .int a, .int b => a < b
  | _, _ => false

namespace Value

variable {i bound : Value}

theorem upTo_of_not_isBelow (above : i.isBelow bound = false) : i.upTo bound = [] := by
  unfold upTo
  split
  · next first stop =>
    have above : ¬ first < stop := of_decide_eq_false above
    exact range_of_le (Int.not_lt.1 fun lt => above (Int32.lt_iff_toInt_lt.2 lt))
  · rfl

/-- The first of some numbers is followed by the ones from the next on. -/
theorem upTo_of_isBelow (below : i.isBelow bound = true) :
    ∃ n : Int32, i = .int n ∧ i.upTo bound = n.toInt :: (int (n + 1)).upTo bound := by
  unfold isBelow at below
  split at below
  · next first stop =>
    have below : first < stop := of_decide_eq_true below
    refine ⟨first, rfl, ?_⟩
    unfold upTo
    dsimp only
    rw [range_of_lt (Int32.lt_iff_toInt_lt.1 below), toInt_add_one_of_lt below]
  · cases below

/-- There are fewer numbers than a 32-bit word can hold. -/
theorem upTo_length_lt (i bound : Value) : (i.upTo bound).length < Int32.size := by
  unfold upTo
  split
  · next first stop =>
    have limit := stop.toInt_lt
    have least := first.le_toInt
    rw [Int.range, List.length_map, List.length_range, Int32.size]
    omega
  · exact Nat.succ_pos _

end Value

/-- What a loop carries for a variable of a kind. -/
def Kind.carried (kind : Kind) (v : Value) : List Value := if kind.isVoid then [] else [v]

/-- A bounded loop: the bound, the variable and the first number are computed, in this order, and
then the body runs on the variable and each number from the first one up to the bound. What it
returns is the variable from then on, and in the end the result. -/
def boundedLoop (kind : Kind) (bound initial first : Exec Value)
    (body : Value → Int → Exec Value) : Exec Value := do
  let stop ← bound
  let v ← initial
  let start ← first
  let last ← (start.upTo stop).foldlM (fun v i => do return kind.kept (← body v i)) v
  return kind.kept last

theorem Kind.carried_length (kind : Kind) (v : Value) :
    (kind.carried v).length = (Handle.variableKinds kind).length := by
  unfold carried Handle.variableKinds
  cases kind.isVoid <;> rfl

theorem boundedLoop_kept (kind : Kind) (bound initial first : Exec Value)
    (body : Value → Int → Exec Value) :
    (do
      let v ← boundedLoop kind bound initial first body
      return kind.kept v) = boundedLoop kind bound initial first body := by
  unfold boundedLoop
  simp only [bind_assoc, pure_bind, Kind.kept_kept]

/-! Rounds. -/

namespace LoopPlan

/-- The frame of a counted loop. -/
def countedFrame (kind : Kind) (args : List Value) (bound v i : Value) : List Value :=
  bound :: (kind.carried v ++ i :: args)

theorem countedFrame_length (kind : Kind) (args : List Value) (bound v i : Value) :
    (countedFrame kind args bound v i).length =
      args.length + (Handle.variableKinds kind).length + 2 := by
  simp only [countedFrame, List.length_cons, List.length_append, kind.carried_length]
  omega

/-- What a function of the frame takes that goes beyond the counter. -/
theorem countedFrame_take (kind : Kind) (args : List Value) (bound v i : Value) (count : Nat) :
    (countedFrame kind args bound v i).take (count + (Handle.variableKinds kind).length + 2) =
      bound :: (kind.carried v ++ i :: args.take count) := by
  rw [countedFrame, ← kind.carried_length v, List.take_succ_cons, Nat.add_comm count, Nat.add_assoc,
    List.take_length_add_append, List.take_succ_cons]

/-- The clauses of a counted loop: for the bound, for the variable and for the counter. -/
def countedClauses (start stop step increment less : Handle) (init fini : Option Handle) :
    List LoopClause :=
  [⟨some stop, none, none, none⟩, ⟨init, some step, none, fini⟩,
    ⟨some start, some increment, some less, none⟩]

/-- The slots of the bound, the variable and the counter. -/
def countedSlots (kind : Kind) : List (Option Slot) :=
  if kind.isVoid then [some 0, none, some 1] else [some 0, some 1, some 2]

/-- A counted loop that carries variables of the given kinds. -/
def countedPlan (kind : Kind) (carried : List Kind) (start stop step increment less : Handle)
    (init fini : Option Handle) : LoopPlan :=
  ⟨countedClauses start stop step increment less init fini, countedSlots kind, carried,
    if kind.isVoid then none else some 1⟩

/-- What the functions of a counted loop do on its frames. -/
structure Counts (call : Caller) (kind : Kind) (args : List Value)
    (body : Value → Int32 → Exec Value) (step increment less : Handle) (fini : Option Handle) :
    Prop where
  less : ∀ bound v i, onLeading call less (countedFrame kind args bound v i) =
    pure (.bool (i.isBelow bound))
  increment : ∀ bound v i, onLeading call increment (countedFrame kind args bound v (.int i)) =
    pure (.int (i + 1))
  step : ∀ bound v i, onLeading call step (countedFrame kind args bound v (.int i)) = (do
    let w ← body v i
    return kind.kept w)
  fini : match fini with
    | none => kind.isVoid = true
    | some f => kind.isVoid = false ∧
      ∀ bound v i, onLeading call f (countedFrame kind args bound v i) = pure v

section

variable {call : Caller} {kind : Kind} {args : List Value} {body : Value → Int32 → Exec Value}
  {start stop step increment less : Handle} {init fini : Option Handle}
  (counts : Counts call kind args body step increment less fini)

include counts

theorem Counts.goesOn (bound v i : Value) :
    goesOn call (countedFrame kind args bound v i)
      (countedClauses start stop step increment less init fini) = pure (i.isBelow bound) := by
  simp only [LoopPlan.goesOn, countedClauses, counts.less, pure_bind, Value.bool?]
  cases i.isBelow bound <;> rfl

/-- A round runs the body and moves the counter on by one. -/
theorem Counts.advance (bound v : Value) (i : Int32) :
    advance call (countedFrame kind args bound v (.int i))
      ((countedClauses start stop step increment less init fini).zip (countedSlots kind)) = (do
        let w ← body v i
        return countedFrame kind args bound (kind.kept w) (.int (i + 1))) := by
  have increment := counts.increment
  have stepped := counts.step bound v i
  unfold countedSlots countedClauses
  -- A variable that is void has no slot, and the counter comes right after the bound.
  cases void : kind.isVoid with
  | true =>
    have counted : ∀ w j, store (countedFrame kind args bound v (.int i)) 1 j =
        pure (countedFrame kind args bound w j) := by
      simp [store, countedFrame, Kind.carried, void]
    simp only [if_true, List.zip_cons_cons, LoopPlan.advance, stepped, increment, bind_assoc,
      pure_bind]
    exact congrArg (body v i >>= ·) (funext fun w => by rw [counted (kind.kept w), pure_bind]; rfl)
  | false =>
    have carried : ∀ w, store (countedFrame kind args bound v (.int i)) 1 w =
        pure (countedFrame kind args bound w (.int i)) := by
      simp [store, countedFrame, Kind.carried, void]
    have counted : ∀ w j, store (countedFrame kind args bound w (.int i)) 2 j =
        pure (countedFrame kind args bound w j) := by
      simp [store, countedFrame, Kind.carried, void]
    simp only [Bool.false_eq_true, if_false, List.zip_cons_cons, LoopPlan.advance, stepped,
      bind_assoc, pure_bind, carried, increment, counted]
    rfl

theorem Counts.finish (bound v i : Value) :
    finish call (countedFrame kind args bound v i) (if kind.isVoid then none else some 1) 0 .void
      (countedClauses start stop step increment less init fini) = pure (kind.kept v) := by
  have finishes := counts.fini
  unfold countedClauses Kind.kept
  cases fini with
  | none =>
    rw [finishes]
    rfl
  | some f =>
    obtain ⟨nonVoid, returns⟩ := finishes
    simp only [LoopPlan.finish, returns, nonVoid, pure_bind]
    rfl

/-- All rounds run the body on the numbers from the counter up to the bound. -/
theorem Counts.rounds (carried : List Kind) (bound v i : Value) {limit : Nat}
    (enough : (i.upTo bound).length < limit) :
    rounds call (countedPlan kind carried start stop step increment less init fini) limit
        (countedFrame kind args bound v i) = (do
      let last ← (i.upTo bound).foldlM
        (fun v k => do return kind.kept (← body v (.ofInt k))) v
      return kind.kept last) := by
  -- With each round that is allowed, the list of numbers gets shorter by one.
  induction limit generalizing v i with
  | zero => exact absurd enough (Nat.not_lt_zero _)
  | succ n ih =>
    rw [LoopPlan.rounds, countedPlan]
    simp only [counts.goesOn, pure_bind]
    cases below : i.isBelow bound with
    | false =>
      rw [Value.upTo_of_not_isBelow below]
      let clauses := countedClauses start stop step increment less init fini
      show LoopPlan.finish call _ _ 0 .void clauses = _
      exact counts.finish bound v i
    | true =>
      obtain ⟨k, rfl, numbers⟩ := Value.upTo_of_isBelow below
      rw [numbers, List.length_cons] at enough
      rw [if_pos rfl, counts.advance, numbers, List.foldlM_cons, Int32.ofInt_toInt]
      simp only [bind_assoc, pure_bind]
      exact congrArg (body v k >>= ·) (funext fun w => ih _ _ (Nat.lt_of_succ_lt_succ enough))

omit counts

/-- The bound, the variable and the counter start in this order. -/
theorem start_counted {carried : List Kind} (zero : kind.isVoid = false → carried[1]? = some kind) :
    (do
      let started ← LoopPlan.start call carried args
        ((countedClauses start stop step increment less init fini).zip (countedSlots kind))
      return started ++ args) = (do
        let bound ← onLeading call stop args
        let v ← init.elim (pure (.zero kind)) (onLeading call · args)
        let i ← onLeading call start args
        return countedFrame kind args bound v i) := by
  unfold countedSlots countedClauses countedFrame Kind.carried
  cases void : kind.isVoid with
  | true =>
    cases init <;> simp [LoopPlan.start]
  | false =>
    have kind : Exec.ofOption carried[1]? = pure kind := by
      rw [zero void]
      rfl
    cases init <;> simp [LoopPlan.start, kind]

include counts

/-- A counted loop is a bounded loop. -/
theorem Counts.run {carried : List Kind} (zero : kind.isVoid = false → carried[1]? = some kind)
    {limit : Nat} (enough : Int32.size ≤ limit) :
    LoopPlan.run call (countedPlan kind carried start stop step increment less init fini) limit
        args =
      boundedLoop kind (onLeading call stop args)
        (init.elim (pure (.zero kind)) (onLeading call · args)) (onLeading call start args)
        fun v k => body v (.ofInt k) := by
  let plan := countedPlan kind carried start stop step increment less init fini
  have begins : (do
      let started ← LoopPlan.start call carried args (plan.clauses.zip plan.slots)
      return started ++ args) = _ := start_counted zero
  have rounds : ∀ bound v i, LoopPlan.rounds call plan limit (countedFrame kind args bound v i) =
      (do
        let last ← (i.upTo bound).foldlM (fun v k => do return kind.kept (← body v (.ofInt k))) v
        return kind.kept last) := fun bound v i =>
    counts.rounds carried bound v i (Nat.lt_of_lt_of_le (Value.upTo_length_lt i bound) enough)
  calc LoopPlan.run call plan limit args
    _ = (do
        let started ← LoopPlan.start call carried args (plan.clauses.zip plan.slots)
        return started ++ args) >>= LoopPlan.rounds call plan limit := by
      simp only [bind_assoc, pure_bind]
      rfl
    _ = _ := by
      refine (congrArg (· >>= LoopPlan.rounds call plan limit) begins).trans ?_
      simp only [bind_assoc, pure_bind, rounds, plan, boundedLoop]

end

end LoopPlan
end TypedHandles
