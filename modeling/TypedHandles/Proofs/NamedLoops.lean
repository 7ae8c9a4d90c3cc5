import Mathlib.Logic.Function.Basic
import TypedHandles.Proofs.CountedLoops

/-!
Loops over named variables. A clause with a variable names it by its own number; the functions of
the loop see the values of all variables, in the order of the clauses, and the arguments after them.
`NamedLoop.perform` is the loop that a list of clauses describes.

A loop that runs keeps its variables in slots at the front of one frame. What it does is the same:
with any way to run code it makes the same calls in the same order and comes to the same end.
-/
namespace TypedHandles

/-- Goes on to the next value while a test holds, for so many rounds at most. -/
def Exec.repeatWhile {σ α : Type} (test : σ → Exec Bool) (next : σ → Exec σ) (done : σ → Exec α) :
    Nat → σ → Exec α
  | 0, _ => throw .exhausted
  | n + 1, x => do
    if ← test x then repeatWhile test next done n (← next x)
    else done x

/-- Repetitions that do the same on two views of a value come to the same. -/
theorem Exec.repeatWhile_view {σ τ α : Type} (view : σ → τ) {test : σ → Exec Bool}
    {next : σ → Exec σ} {done : σ → Exec α} {test' : τ → Exec Bool} {next' : τ → Exec τ}
    {done' : τ → Exec α} (tests : ∀ x, test' (view x) = test x)
    (steps : ∀ x, next' (view x) = (do return view (← next x)))
    (ends : ∀ x, done' (view x) = done x) (n : Nat) (x : σ) :
    repeatWhile test' next' done' n (view x) = repeatWhile test next done n x := by
  induction n generalizing x with
  | zero => rfl
  | succ n ih =>
    unfold repeatWhile
    rw [tests, steps, ends]
    refine congrArg (test x >>= ·) (funext fun another => ?_)
    cases another with
    | true => simp only [if_true, bind_assoc, pure_bind, ih]
    | false => rfl

/-- What follows a repetition follows its end. -/
theorem Exec.repeatWhile_bind {σ α β : Type} (test : σ → Exec Bool) (next : σ → Exec σ)
    (done : σ → Exec α) (f : α → Exec β) (n : Nat) (x : σ) :
    repeatWhile test next done n x >>= f = repeatWhile test next (fun y => done y >>= f) n x := by
  induction n generalizing x with
  | zero => rfl
  | succ n ih =>
    unfold repeatWhile
    rw [bind_assoc]
    refine congrArg (test x >>= ·) (funext fun another => ?_)
    cases another with
    | true => simp only [if_true, bind_assoc, ih]
    | false => rfl

/-- Whether a clause has a variable. -/
def LoopClause.hasVariable (c : LoopClause) : Bool := !c.variableKind.isVoid

/-! The loop that clauses describe. -/

namespace NamedLoop

/-- What the variables hold, under the numbers of their clauses. -/
abbrev Variables := Nat → Value

/-- Some clauses of a loop with their numbers. -/
abbrev Numbered := List (LoopClause × Nat)

/-- The variable of a clause gets a value; for a clause without a variable the value is dropped. -/
def assign (c : LoopClause × Nat) (v : Value) (vars : Variables) : Variables :=
  if c.1.hasVariable then Function.update vars c.2 v else vars

/-- The values of all variables, in the order of the clauses. -/
def visible (clauses : Numbered) (vars : Variables) : List Value :=
  (clauses.filter (·.1.hasVariable)).map fun c => vars c.2

variable (run : Runner) (args : List Value)

/-- What a variable holds at first: what its init returns, else zero. An init runs on the
arguments, also where there is no variable. -/
def initial (c : LoopClause) : Exec Value :=
  match c.init with
  | some init => run.front init args
  | none => pure (.zero c.variableKind)

/-- All variables start, in the order of the clauses. -/
def start : Numbered → Exec Variables
  | [] => pure fun _ => .void
  | c :: rest => do
    let v ← initial run args c.1
    return assign c v (← start rest)

/-- Asks predicates until one does not hold. -/
def allHold (frame : List Value) : List Handle → Exec Bool
  | [] => pure true
  | pred :: rest => do
    if (← run.front pred frame).bool?.getD false then allHold frame rest else return false

/-- The step of one clause sees the variables as they are by then. -/
def step (clauses : Numbered) (vars : Variables) (c : LoopClause × Nat) : Exec Variables :=
  match c.1.step with
  | some step => do return assign c (← run.front step (visible clauses vars ++ args)) vars
  | none => pure vars

/-- Runs all finalizers; the result is that of the one that returns something, if there is one. -/
def finish (frame : List Value) : List Handle → Exec Value
  | [] => pure .void
  | fini :: rest => do
    let v ← run.front fini frame
    let other ← finish frame rest
    return if fini.signature.returnsVoid then other else v

/-- Runs the loop of some clauses on arguments, for so many rounds at most. -/
def perform (clauses : List LoopClause) (limit : Nat) : Exec Value := do
  let numbered := clauses.zipIdx
  let vars ← start run args numbered
  Exec.repeatWhile
    (fun vars => allHold run (visible numbered vars ++ args) (clauses.filterMap (·.pred)))
    (fun vars => numbered.foldlM (step run args numbered) vars)
    (fun vars => finish run (visible numbered vars ++ args) (clauses.filterMap (·.fini)))
    limit vars

end NamedLoop

/-! Frames and named variables. -/

namespace NamedLoop

variable {run : Runner} {args : List Value} {clauses : Numbered} {c : LoopClause × Nat}

theorem step_of_none {c : LoopClause} (none : c.step = none) (k : Nat) (vars : Variables) :
    step run args clauses vars (c, k) = pure vars := by
  unfold step
  rw [none]

theorem step_of_some {c : LoopClause} {f : Handle} (some : c.step = some f) (k : Nat)
    (vars : Variables) : step run args clauses vars (c, k) = (do
      return assign (c, k) (← run.front f (visible clauses vars ++ args)) vars) := by
  unfold step
  rw [some]

theorem visible_cons (c : LoopClause × Nat) (clauses : Numbered) (vars : Variables) :
    visible (c :: clauses) vars =
      (if c.1.hasVariable then [vars c.2] else []) ++ visible clauses vars := by
  unfold visible
  cases h : c.1.hasVariable <;> simp [h]

theorem visible_append (before after : Numbered) (vars : Variables) :
    visible (before ++ after) vars = visible before vars ++ visible after vars := by
  simp [visible]

theorem visible_length (clauses : Numbered) (vars : Variables) :
    (visible clauses vars).length = clauses.countP (·.1.hasVariable) := by
  simp [visible, List.countP_eq_length_filter]

/-- Only the variable of its own clause changes. -/
theorem assign_of_ne {k : Nat} (other : k ≠ c.2) (v : Value) (vars : Variables) :
    assign c v vars k = vars k := by
  unfold assign
  split
  · exact Function.update_of_ne other v vars
  · rfl

theorem visible_assign_of_ne (others : ∀ d ∈ clauses, d.2 ≠ c.2) (v : Value) (vars : Variables) :
    visible clauses (assign c v vars) = visible clauses vars :=
  List.map_congr_left fun d mem => assign_of_ne (others d (List.mem_of_mem_filter mem)) v vars

theorem visible_assign_self (c : LoopClause) {k : Nat} (rest : List LoopClause) (v : Value)
    (vars : Variables) :
    visible ((c, k) :: rest.zipIdx (k + 1)) (assign (c, k) v vars) =
      (if c.hasVariable then [v] else []) ++ visible (rest.zipIdx (k + 1)) vars := by
  have others : ∀ d ∈ rest.zipIdx (k + 1), d.2 ≠ k := fun d mem =>
    Nat.ne_of_gt (List.le_snd_of_mem_zipIdx mem)
  rw [visible_cons, visible_assign_of_ne others]
  unfold assign
  split
  · rw [Function.update_self]
  · rfl

/-- Where no finalizer returns anything there is no result. -/
theorem finish_kept {ret : Kind} {finis : List Handle}
    (void : ret.isVoid = true → ∀ fini ∈ finis, fini.signature.returnsVoid = true)
    (frame : List Value) :
    (do
      let v ← finish run frame finis
      return ret.kept v) = finish run frame finis := by
  cases kind : ret.isVoid with
  | false => simp [Kind.kept, kind]
  | true =>
    have void := void kind
    induction finis with
    | nil => simp [finish, Kind.kept, kind]
    | cons fini rest ih =>
      obtain ⟨here, void⟩ := List.forall_mem_cons.1 void
      simp only [finish, here, if_true, bind_assoc, bind_pure]
      exact congrArg (run.front fini frame >>= ·) (funext fun _ => ih (fun _ => void) void)

end NamedLoop

namespace LoopPlan

open NamedLoop

variable {run : Runner} {args : List Value}

/-- The slots of the variables, when the first clause has none. -/
theorem layout_of_not_hasVariable {c : LoopClause} (none : c.hasVariable = false)
    (rest : List LoopClause) : carriedKinds (c :: rest) = carriedKinds rest ∧
      ∀ next, assignSlots next (c :: rest) = Option.none :: assignSlots next rest := by
  have void : c.variableKind.isVoid = true := by simpa [LoopClause.hasVariable] using none
  simp [carriedKinds, assignSlots, void]

/-- The slots of the variables, when the first clause has one. -/
theorem layout_of_hasVariable {c : LoopClause} (some : c.hasVariable = true)
    (rest : List LoopClause) : carriedKinds (c :: rest) = c.variableKind :: carriedKinds rest ∧
      ∀ next, assignSlots next (c :: rest) = Option.some next :: assignSlots (next + 1) rest := by
  have void : c.variableKind.isVoid = false := by simpa [LoopClause.hasVariable] using some
  simp [carriedKinds, assignSlots, void]

variable (run) in
/-- The variables start with the values of their slots. -/
theorem start_named (before : List Kind) {clauses : List LoopClause} (k : Nat)
    (inits : ∀ c ∈ clauses, ∀ init, c.init = some init → init.arity ≤ args.length) :
    LoopPlan.start run.call (before ++ carriedKinds clauses) args
        (clauses.zip (assignSlots before.length clauses)) = (do
      return visible (clauses.zipIdx k) (← NamedLoop.start run args (clauses.zipIdx k))) := by
  induction clauses generalizing before k with
  | nil => rfl
  | cons c rest ih =>
    obtain ⟨here, inits⟩ := List.forall_mem_cons.1 inits
    rw [List.zipIdx_cons, NamedLoop.start]
    simp only [bind_assoc, pure_bind, visible_assign_self]
    cases carries : c.hasVariable with
    | false =>
      obtain ⟨kinds, slots⟩ := layout_of_not_hasVariable carries rest
      rw [kinds, slots, List.zip_cons_cons, LoopPlan.start, ih before (k + 1) inits]
      unfold initial
      cases found : c.init with
      | none => simp
      | some init => simp [onLeading_of_le (here init found), Runner.front]
    | true =>
      obtain ⟨kinds, slots⟩ := layout_of_hasVariable carries rest
      have shift : before ++ carriedKinds (c :: rest) =
          (before ++ [c.variableKind]) ++ carriedKinds rest := by
        rw [kinds, List.append_cons]
      have next : before.length + 1 = (before ++ [c.variableKind]).length := by simp
      have zero : Exec.ofOption (before ++ carriedKinds (c :: rest))[before.length]? =
          pure c.variableKind := by
        rw [kinds, getElem?_after]
        rfl
      rw [slots, List.zip_cons_cons, LoopPlan.start, next, shift, ih _ (k + 1) inits, ← shift]
      unfold initial
      cases found : c.init with
      | none => simp [zero]
      | some init => simp [onLeading_of_le (here init found), Runner.front]

theorem goesOn_named {frame : List Value} {clauses : List LoopClause}
    (preds : ∀ c ∈ clauses, ∀ pred, c.pred = some pred → pred.arity ≤ frame.length) :
    goesOn run.call frame clauses = allHold run frame (clauses.filterMap (·.pred)) := by
  induction clauses with
  | nil => rfl
  | cons c rest ih =>
    obtain ⟨here, preds⟩ := List.forall_mem_cons.1 preds
    unfold goesOn
    cases found : c.pred with
    | none => simp only [List.filterMap_cons_none found, ih preds]
    | some pred =>
      simp only [List.filterMap_cons_some found, allHold, onLeading_of_le (here pred found),
        ih preds]
      rfl

variable (args) in
/-- A value is stored in the slot of a variable. -/
theorem store_named (before : Numbered) {c : LoopClause} {k : Nat} (rest : List LoopClause)
    (vars : Variables) (below : ∀ d ∈ before, d.2 < k) (some : c.hasVariable = true) (v : Value) :
    store (visible (before ++ (c, k) :: rest.zipIdx (k + 1)) vars ++ args)
        (before.countP (·.1.hasVariable)) v =
      pure (visible (before ++ (c, k) :: rest.zipIdx (k + 1)) (assign (c, k) v vars) ++ args) := by
  have others : ∀ d ∈ before, d.2 ≠ k := fun d mem => Nat.ne_of_lt (below d mem)
  have slot := visible_length before vars
  rw [visible_append, visible_append, visible_assign_of_ne others, visible_assign_self,
    visible_cons, ← slot]
  simp [store, some]

/-- A round changes the frame as it changes the variables. -/
theorem advance_named (before : Numbered) {clauses : List LoopClause} (k : Nat) (vars : Variables)
    (below : ∀ d ∈ before, d.2 < k)
    (steps : ∀ c ∈ clauses, ∀ step, c.step = some step →
      ∀ vars, step.arity ≤ (visible (before ++ clauses.zipIdx k) vars ++ args).length) :
    advance run.call (visible (before ++ clauses.zipIdx k) vars ++ args)
        (clauses.zip (assignSlots (before.countP (·.1.hasVariable)) clauses)) = (do
      let last ← (clauses.zipIdx k).foldlM (step run args (before ++ clauses.zipIdx k)) vars
      return visible (before ++ clauses.zipIdx k) last ++ args) := by
  induction clauses generalizing before k vars with
  | nil => rfl
  | cons c rest ih =>
    obtain ⟨here, steps⟩ := List.forall_mem_cons.1 steps
    have shift : before ++ (c :: rest).zipIdx k =
        (before ++ [(c, k)]) ++ rest.zipIdx (k + 1) := List.append_cons _ _ _
    have below' : ∀ d ∈ before ++ [(c, k)], d.2 < k + 1 := by
      intro d mem
      rcases List.mem_append.1 mem with mem | mem
      · exact Nat.lt_succ_of_lt (below d mem)
      · cases List.mem_singleton.1 mem
        exact Nat.lt_succ_self k
    rw [shift] at here steps ⊢
    have later := fun vars' => ih (before ++ [(c, k)]) (k + 1) vars' below' steps
    rw [List.zipIdx_cons, List.foldlM_cons]
    -- The slot of the next variable moves on where this clause has one.
    cases carries : c.hasVariable with
    | false =>
      have count : (before ++ [(c, k)]).countP (·.1.hasVariable) =
          before.countP (·.1.hasVariable) := by
        simp [carries]
      rw [count] at later
      rw [(layout_of_not_hasVariable carries rest).2, List.zip_cons_cons]
      unfold advance
      cases found : c.step with
      | none => simp only [later, step_of_none found, pure_bind]
      | some step =>
        simp only [onLeading_of_le (here step found vars), later, step_of_some found, bind_assoc,
          pure_bind, assign, carries]
        rfl
    | true =>
      have count : (before ++ [(c, k)]).countP (·.1.hasVariable) =
          before.countP (·.1.hasVariable) + 1 := by
        simp [carries]
      rw [count] at later
      rw [(layout_of_hasVariable carries rest).2, List.zip_cons_cons]
      unfold advance
      cases found : c.step with
      | none => simp only [later, step_of_none found, pure_bind]
      | some step =>
        have stored := fun v => store_named args before rest vars below carries v
        rw [← List.zipIdx_cons, shift] at stored
        simp only [onLeading_of_le (here step found vars), stored, later, step_of_some found,
          bind_assoc, pure_bind]
        rfl

/-! Results. -/

variable {frame : List Value} {frameSignature : Signature}

/-- A clause is chosen when its finalizer returns something and no other clause was chosen. -/
theorem chooseResults_cons {c : LoopClause} {rest : List LoopClause} {index : Nat}
    {result chosen : Option Nat}
    (chooses : chooseResults frameSignature result index (c :: rest) = .ok chosen) :
    (chooseResults frameSignature result (index + 1) rest = .ok chosen ∧
      ∀ fini, c.fini = some fini → fini.signature.returnsVoid = true) ∨
    ∃ fini, c.fini = some fini ∧ fini.signature.returnsVoid = false ∧ result = none ∧
      chooseResults frameSignature (some index) (index + 1) rest = .ok chosen := by
  unfold chooseResults chooseResult at chooses
  cases found : c.fini with
  | none =>
    rw [found] at chooses
    exact .inl ⟨chooses, fun _ absent => by cases absent⟩
  | some fini =>
    rw [found] at chooses
    dsimp only at chooses
    split at chooses
    · next void =>
      refine .inl ⟨chooses, ?_⟩
      rintro _ ⟨⟩
      exact void
    · next returns =>
      split at chooses
      · cases chooses
      · next fresh =>
        refine .inr ⟨fini, rfl, by simpa using returns, by simpa using fresh, chooses⟩

/-- What is chosen was chosen already or stands later. -/
theorem chooseResults_eq {clauses : List LoopClause} {index : Nat} {result chosen : Option Nat}
    (chooses : chooseResults frameSignature result index clauses = .ok chosen) :
    chosen = result ∨ result = none ∧ ∃ j, chosen = some j ∧ index ≤ j := by
  induction clauses generalizing index result with
  | nil =>
    cases chooses
    exact .inl rfl
  | cons c rest ih =>
    rcases chooseResults_cons chooses with ⟨later, -⟩ | ⟨-, -, -, fresh, later⟩
    · rcases ih later with same | ⟨fresh, j, eq, above⟩
      · exact .inl same
      · exact .inr ⟨fresh, j, eq, Nat.le_of_succ_le above⟩
    · rcases ih later with eq | ⟨fresh, -⟩
      · exact .inr ⟨fresh, index, eq, Nat.le_refl _⟩
      · cases fresh

/-- One finalizer at most returns something. -/
theorem chooseResults_countP {clauses : List LoopClause} {index : Nat}
    {result chosen : Option Nat}
    (chooses : chooseResults frameSignature result index clauses = .ok chosen) :
    result.toList.length + (clauses.filterMap (·.fini)).countP (!·.signature.returnsVoid) =
      chosen.toList.length := by
  induction clauses generalizing index result with
  | nil =>
    cases chooses
    rfl
  | cons c rest ih =>
    rcases chooseResults_cons chooses with ⟨later, void⟩ | ⟨fini, found, returns, rfl, later⟩
    · rw [← ih later]
      cases found : c.fini with
      | none => rw [List.filterMap_cons_none found]
      | some fini => simp [List.filterMap_cons_some found, void fini found]
    · rw [← ih later, List.filterMap_cons_some found, List.countP_cons]
      simp [returns, Nat.add_comm]

/-- The finalizer that is chosen returns something. -/
theorem chooseResults_returns {clauses : List LoopClause} {index chosen : Nat}
    {result : Option Nat}
    (chooses : chooseResults frameSignature result index clauses = .ok (some chosen)) :
    result = some chosen ∨ ∃ j fini, chosen = index + j ∧
      (clauses[j]?).bind (·.fini) = some fini ∧ fini.signature.returnsVoid = false := by
  induction clauses generalizing index result with
  | nil =>
    cases chooses
    exact .inl rfl
  | cons c rest ih =>
    rcases chooseResults_cons chooses with ⟨later, -⟩ | ⟨fini, found, returns, -, later⟩
    · rcases ih later with same | ⟨j, fini, eq, found, returns⟩
      · exact .inl same
      · exact .inr ⟨j + 1, fini, by omega, found, returns⟩
    · rcases ih later with same | ⟨j, fini, eq, found, returns⟩
      · exact .inr ⟨0, fini, (Option.some.inj same).symm, found, returns⟩
      · exact .inr ⟨j + 1, fini, by omega, found, returns⟩

variable (run) in
/-- Once the result is there the other finalizers only run. -/
theorem finish_of_lt {clauses : List LoopClause} {chosen index : Nat} (before : chosen < index)
    (finis : ∀ c ∈ clauses, ∀ fini, c.fini = some fini → fini.arity ≤ frame.length)
    (result : Value) :
    finish run.call frame (some chosen) index result clauses = (do
      let _ ← NamedLoop.finish run frame (clauses.filterMap (·.fini))
      return result) := by
  induction clauses generalizing index with
  | nil => rfl
  | cons c rest ih =>
    obtain ⟨here, finis⟩ := List.forall_mem_cons.1 finis
    have rest := ih (Nat.lt_succ_of_lt before) finis
    unfold finish
    cases found : c.fini with
    | none => simpa only [List.filterMap_cons_none found] using rest
    | some fini =>
      have other : (some chosen == some index) = false := by simpa using Nat.ne_of_lt before
      simp only [List.filterMap_cons_some found, onLeading_of_le (here fini found), other,
        NamedLoop.finish, bind_assoc, pure_bind]
      exact congrArg (run.front fini frame >>= ·) (funext fun _ => rest)

/-- The finalizers run in the order of the clauses, and the one that is chosen yields the result. -/
theorem finish_named {clauses : List LoopClause} {index : Nat} {chosen : Option Nat}
    (chooses : chooseResults frameSignature none index clauses = .ok chosen)
    (finis : ∀ c ∈ clauses, ∀ fini, c.fini = some fini → fini.arity ≤ frame.length) :
    finish run.call frame chosen index .void clauses =
      NamedLoop.finish run frame (clauses.filterMap (·.fini)) := by
  induction clauses generalizing index with
  | nil => rfl
  | cons c rest ih =>
    obtain ⟨here, finis⟩ := List.forall_mem_cons.1 finis
    unfold finish
    rcases chooseResults_cons chooses with ⟨later, void⟩ | ⟨fini, found, returns, -, later⟩
    · have rest := ih later finis
      cases found : c.fini with
      | none => simpa only [List.filterMap_cons_none found] using rest
      | some fini =>
        have other : (chosen == some index) = false := by
          rcases chooseResults_eq later with rfl | ⟨-, j, rfl, above⟩
          · rfl
          · simpa using Nat.ne_of_gt above
        simp only [List.filterMap_cons_some found, onLeading_of_le (here fini found), other,
          NamedLoop.finish, void fini found, if_true, bind_pure]
        exact congrArg (run.front fini frame >>= ·) (funext fun _ => rest)
    · have eq : chosen = some index := by
        rcases chooseResults_eq later with eq | ⟨fresh, -⟩
        · exact eq
        · cases fresh
      have others := fun v => finish_of_lt run (Nat.lt_succ_self index) finis v
      simp only [found, eq, List.filterMap_cons_some found, onLeading_of_le (here fini found),
        NamedLoop.finish, returns, beq_self_eq_true, if_true]
      exact congrArg (run.front fini frame >>= ·) (funext others)

/-! Accepted loops. -/

/-- The rounds of a loop are repetitions on its frame. -/
theorem rounds_eq (call : Caller) (plan : LoopPlan) (limit : Nat) (frame : List Value) :
    rounds call plan limit frame = Exec.repeatWhile (fun frame => goesOn call frame plan.clauses)
      (fun frame => advance call frame (plan.clauses.zip plan.slots))
      (fun frame => finish call frame plan.result 0 .void plan.clauses) limit frame := by
  induction limit generalizing frame with
  | zero => rfl
  | succ n ih =>
    unfold rounds Exec.repeatWhile
    simp only [ih]

/-- As many variables are visible as the frame has slots for them. -/
theorem visible_zipIdx_length (clauses : List LoopClause) (vars : Variables) :
    (visible clauses.zipIdx vars).length = (carriedKinds clauses).length := by
  have numbered : clauses.zipIdx.countP (·.1.hasVariable) =
      (clauses.zipIdx.map Prod.fst).countP (·.hasVariable) := by
    rw [List.countP_map]
    rfl
  rw [visible_length, numbered, List.zipIdx_map_fst, carriedKinds, ← List.countP_eq_length_filter,
    List.countP_map]
  rfl

variable {clauses : List LoopClause} {outer : List Kind} {result : Option Nat}

/-- A loop that was accepted runs as its clauses describe it. -/
theorem run_named (accepted : Accepted clauses outer result) (lengths : args.length = outer.length)
    (run : Runner) (limit : Nat) :
    LoopPlan.run run.call ⟨clauses, assignSlots 0 clauses, carriedKinds clauses, result⟩ limit
        args = NamedLoop.perform run args clauses limit := by
  have width : ∀ vars, (visible clauses.zipIdx vars ++ args).length =
      (carriedKinds clauses ++ outer).length := by
    intro vars
    rw [List.length_append, List.length_append, visible_zipIdx_length, lengths]
  have inits : ∀ c ∈ clauses, ∀ init, c.init = some init → init.arity ≤ args.length := by
    intro c mem init found
    rw [lengths]
    exact length_le_of_isPrefixOf ((accepted.fits c mem).init init found)
  have body : ∀ c ∈ clauses, ∀ f ∈ c.bodyFunctions, ∀ vars,
      f.arity ≤ (visible clauses.zipIdx vars ++ args).length := by
    intro c mem f found vars
    rw [width]
    exact length_le_of_isPrefixOf ((accepted.fits c mem).body f found)
  obtain ⟨frameSignature, chooses⟩ := accepted.chosen
  have rounds : ∀ vars, LoopPlan.rounds run.call
      ⟨clauses, assignSlots 0 clauses, carriedKinds clauses, result⟩ limit
      (visible clauses.zipIdx vars ++ args) = Exec.repeatWhile
        (fun vars => allHold run (visible clauses.zipIdx vars ++ args) (clauses.filterMap (·.pred)))
        (fun vars => clauses.zipIdx.foldlM (NamedLoop.step run args clauses.zipIdx) vars)
        (fun vars => NamedLoop.finish run (visible clauses.zipIdx vars ++ args)
          (clauses.filterMap (·.fini))) limit vars := by
    intro vars
    rw [rounds_eq]
    refine Exec.repeatWhile_view (fun vars => visible clauses.zipIdx vars ++ args) ?_ ?_ ?_ limit
      vars
    · exact fun vars => goesOn_named fun c mem pred found =>
        body c mem pred (mem_bodyFunctions_of_pred found) vars
    · exact fun vars => advance_named [] 0 vars (List.forall_mem_nil _) fun c mem step found =>
        body c mem step (mem_bodyFunctions_of_step found)
    · exact fun vars => finish_named chooses fun c mem fini found =>
        body c mem fini (mem_bodyFunctions_of_fini found) vars
  have started := start_named run [] 0 inits
  unfold LoopPlan.run NamedLoop.perform
  dsimp only
  rw [List.nil_append] at started
  rw [show ([] : List Kind).length = 0 from rfl] at started
  rw [started]
  simp only [bind_assoc, pure_bind, rounds]

/-- A loop without a result has no finalizer that returns something. -/
theorem returnsVoid_of_resultKind (accepted : Accepted clauses outer result)
    (void : (resultKind clauses result).isVoid = true) :
    ∀ fini ∈ clauses.filterMap (·.fini), fini.signature.returnsVoid = true := by
  obtain ⟨frameSignature, chooses⟩ := accepted.chosen
  cases result with
  | none =>
    have none := chooseResults_countP chooses
    rw [Option.toList_none, List.length_nil, Nat.zero_add, List.countP_eq_zero] at none
    simpa using none
  | some index =>
    rcases chooseResults_returns chooses with fresh | ⟨j, fini, eq, found, returns⟩
    · cases fresh
    · obtain rfl : index = j := by rw [eq, Nat.zero_add]
      have ret : resultKind clauses (some index) = fini.signature.ret := by
        rw [resultKind, Option.bind_some, found]
      rw [ret] at void
      cases void.symm.trans returns

end LoopPlan

namespace Handle

variable {h : Handle} {clauses : List LoopClause} {t u : HandleTable}

/-- What was accepted as a loop runs its clauses. -/
theorem loop_eq_ok (made : Handle.loop clauses t = (.ok h, u)) :
    ∃ result, LoopPlan.Accepted clauses h.signature.params result ∧
      h.signature.ret = LoopPlan.resultKind clauses result ∧
      h.program = .single h.signature (.loop ⟨clauses, LoopPlan.assignSlots 0 clauses,
        LoopPlan.carriedKinds clauses, result⟩) := by
  obtain ⟨outer, result, accepted, same⟩ := (Blueprint.loop_accepted _).of_eq_ok
    (Build.of_accept made)
  have signature : h.signature = ⟨LoopPlan.resultKind clauses result, outer⟩ :=
    congrArg Blueprint.signature same
  rw [signature]
  exact ⟨result, accepted, rfl, congrArg Blueprint.program same⟩

/-- A loop performs what its clauses describe. -/
theorem loop_perform (made : Handle.loop clauses t = (.ok h, u)) {args : List Value}
    (lengths : args.length = h.arity) (run : Runner) (limit : Nat) :
    h.program.perform run limit args = NamedLoop.perform run args clauses limit := by
  obtain ⟨result, accepted, ret, program⟩ := loop_eq_ok made
  have void := LoopPlan.returnsVoid_of_resultKind accepted
  rw [← ret] at void
  rw [program, Program.single_perform lengths]
  unfold Step.perform
  dsimp only
  rw [Step.gather_all lengths, pure_bind, LoopPlan.run_named accepted lengths run limit]
  unfold NamedLoop.perform
  simp only [bind_assoc, Exec.repeatWhile_bind, NamedLoop.finish_kept void]

/-- A loop runs as its clauses describe, one level below it. -/
theorem loop_invokeExact (made : Handle.loop clauses t = (.ok h, u)) {args : List Value}
    (conform : Conform args h.signature.params) (host : Host) (n : Nat) :
    h.invokeExact (runCode host (n + 1)) args =
      NamedLoop.perform (runCode host n) args clauses n := by
  rw [invokeExact_of_conform _ conform]
  exact loop_perform made conform.length_eq (runCode host n) n

/-- A loop does what its clauses describe. Inits see leading arguments, and all other functions see
leading values of the variables and the arguments; each takes no more than there are. At most one
finalizer returns something, and the result is its result. Whatever way there is to run code, the
loop makes the calls of the described loop in the same order and comes to the same end, within the
same number of rounds. -/
theorem loop_named (made : Handle.loop clauses t = (.ok h, u)) :
    (∀ c ∈ clauses, LoopPlan.ClauseFits h.signature.params
      (LoopPlan.carriedKinds clauses ++ h.signature.params) c) ∧
    (∀ vars, (NamedLoop.visible clauses.zipIdx vars).length =
      (LoopPlan.carriedKinds clauses).length) ∧
    (clauses.filterMap (·.fini)).countP (!·.signature.returnsVoid) ≤ 1 ∧
    ∀ args, Conform args h.signature.params →
      (∀ run limit, h.program.perform run limit args =
        NamedLoop.perform run args clauses limit) ∧
      ∀ host n, h.invokeExact (runCode host (n + 1)) args =
        NamedLoop.perform (runCode host n) args clauses n := by
  obtain ⟨result, accepted, -, -⟩ := loop_eq_ok made
  refine ⟨accepted.fits, LoopPlan.visible_zipIdx_length clauses, ?one, fun args conform =>
    ⟨loop_perform made conform.length_eq, loop_invokeExact made conform⟩⟩
  obtain ⟨frameSignature, chooses⟩ := accepted.chosen
  have count := LoopPlan.chooseResults_countP chooses
  have one : result.toList.length ≤ 1 := by cases result <;> simp
  omega

end Handle

/-- A host that computes Fibonacci numbers: its functions are the parts of a loop over the latest
number, the one before it and a counter. -/
def Host.fibonacci : Host := fun f args =>
  match f.id, args.filterMap Value.int? with
  | 0, _ => .value (.int 1)
  | 1, b :: a :: _ => .value (.int (b + a))
  | 2, b :: a :: _ => .value (.int (b - a))
  | 3, _ :: a :: _ => .value (.int a)
  | 4, _ :: _ :: i :: _ => .value (.int (i + 1))
  | 5, _ :: _ :: i :: n :: _ => .value (.bool (i < n))
  | _, _ => .value .void

/-- The clauses of a loop that computes a Fibonacci number. The second clause has no variable, and
the last two start from zero. -/
def NamedLoop.fibonacci : List LoopClause :=
  let pair : Signature := ⟨.int, [.int, .int]⟩
  [⟨some (.ofHost 0 ⟨.int, []⟩), some (.ofHost 1 pair), none, none⟩,
    ⟨none, some (.ofHost 6 ⟨.void, [.int]⟩), none, none⟩,
    ⟨none, some (.ofHost 2 pair), none, some (.ofHost 3 pair)⟩,
    ⟨none, some (.ofHost 4 ⟨.int, [.int, .int, .int]⟩),
      some (.ofHost 5 ⟨.bool, [.int, .int, .int, .int]⟩), none⟩]

/-- The sixth Fibonacci number, in five rounds. -/
theorem Handle.loop_named_fibonacci :
    ∃ h t, Handle.loop NamedLoop.fibonacci .empty = (.ok h, t) ∧
      Conform [.int 6] h.signature.params ∧
      h.invokeExact (runCode .fibonacci 9) [.int 6] =
        NamedLoop.perform (runCode .fibonacci 8) [.int 6] NamedLoop.fibonacci 8 ∧
      (h.invokeExact (runCode .fibonacci 9) [.int 6] .empty).1 = .ok (.int 8) := by
  have made : Handle.loop NamedLoop.fibonacci .empty = (.ok _, _) := rfl
  have conform : Conform [.int 6] [.int] := .cons rfl .nil
  obtain ⟨-, -, -, runs⟩ := Handle.loop_named made
  exact ⟨_, _, made, conform, (runs _ conform).2 .fibonacci 8, rfl⟩

end TypedHandles
