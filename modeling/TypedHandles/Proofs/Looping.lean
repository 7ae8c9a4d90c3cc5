import TypedHandles.Proofs.Calling

/-!
Typed loops run safely. The variables of a loop keep their kinds from round to round, so each
function of each clause finds leading slots of its parameters.
-/
namespace TypedHandles

variable {F : ClassLibrary} {K : Known} {run run' : Runner}

namespace LoopPlan

theorem onLeading_agree (agree : Runner.Agree F K run run') {h : Handle} {vs : List Value}
    {ks : List Kind} (known : K (.handle h)) (fits : Fits F K vs ks)
    (leads : h.signature.params <+: ks) :
    Exec.Agree F K (onLeading run.call h vs) (onLeading run'.call h vs)
      (OfKind F h.signature.ret) := by
  obtain ⟨ws, taken, here⟩ := fits.leading leads
  unfold onLeading Handle.arity
  rw [taken, pure_bind, pure_bind]
  exact agree.call known here

/-- The functions of some clauses of a loop with the given variables and parameters. -/
structure Runnable (K : Known) (carried outer : List Kind) (clauses : List LoopClause) : Prop where
  known : ClausesKnown K clauses
  init_params : ∀ c ∈ clauses, ∀ init, c.init = some init → init.signature.params <+: outer
  body_params : ∀ c ∈ clauses, ∀ f ∈ c.bodyFunctions, f.signature.params <+: carried ++ outer
  init_ret : ∀ c ∈ clauses, ∀ init, c.init = some init → init.signature.ret = c.variableKind

namespace Runnable

variable {K' : Known} {carried outer : List Kind} {c : LoopClause} {rest : List LoopClause}

theorem mono {clauses : List LoopClause} (grows : K.Grows K')
    (h : Runnable K carried outer clauses) : Runnable K' carried outer clauses :=
  { h with known := fun c hc f hf => grows _ (h.known c hc f hf) }

theorem tail (h : Runnable K carried outer (c :: rest)) : Runnable K carried outer rest where
  known d hd := h.known d (List.mem_cons_of_mem _ hd)
  init_params d hd := h.init_params d (List.mem_cons_of_mem _ hd)
  body_params d hd := h.body_params d (List.mem_cons_of_mem _ hd)
  init_ret d hd := h.init_ret d (List.mem_cons_of_mem _ hd)

/-- An init of the first clause runs on the parameters of the loop. -/
theorem init_agree (h : Runnable K carried outer (c :: rest)) (agree : Runner.Agree F K run run')
    {init : Handle} (found : c.init = some init) {args : List Value}
    (fits : Fits F K args outer) :
    Exec.Agree F K (onLeading run.call init args) (onLeading run'.call init args)
      (OfKind F c.variableKind) := by
  have mem := List.mem_cons_self (a := c) (l := rest)
  have known := h.known c mem init (mem_functions_of_init found)
  rw [← h.init_ret c mem init found]
  exact onLeading_agree agree known fits (h.init_params c mem init found)

/-- Any other function of the first clause runs on the frame. -/
theorem body_agree (h : Runnable K carried outer (c :: rest)) (agree : Runner.Agree F K run run')
    {f : Handle} (found : f ∈ c.bodyFunctions) {frame : List Value}
    (fits : Fits F K frame (carried ++ outer)) :
    Exec.Agree F K (onLeading run.call f frame) (onLeading run'.call f frame)
      (OfKind F f.signature.ret) := by
  have mem := List.mem_cons_self (a := c) (l := rest)
  exact onLeading_agree agree (h.known c mem f (mem_functions_of_body found)) fits
    (h.body_params c mem f found)

end Runnable

/-- The variable of the first of some clauses: it has no slot when it is `void`, else the next. -/
theorem carriedKinds_cons (c : LoopClause) (rest : List LoopClause) :
    (c.variableKind = .void ∧ carriedKinds (c :: rest) = carriedKinds rest ∧
        ∀ next, assignSlots next (c :: rest) = none :: assignSlots next rest) ∨
      carriedKinds (c :: rest) = c.variableKind :: carriedKinds rest ∧
        ∀ next, assignSlots next (c :: rest) = some next :: assignSlots (next + 1) rest := by
  cases void : c.variableKind.isVoid with
  | true =>
    exact .inl ⟨Kind.isVoid_iff.1 void, by simp [carriedKinds, void], by simp [assignSlots, void]⟩
  | false => exact .inr ⟨by simp [carriedKinds, void], by simp [assignSlots, void]⟩

/-- The kind after some others stands in their slot. -/
theorem getElem?_after (before : List Kind) (k : Kind) (after : List Kind) :
    (before ++ k :: after)[before.length]? = some k := by
  simp

/-- Started variables have the kinds of the variables. -/
theorem start_agree (before : List Kind) (agree : Runner.Agree F K run run') {outer : List Kind}
    {args : List Value} {clauses : List LoopClause}
    (runnable : Runnable K (before ++ carriedKinds clauses) outer clauses)
    (fits : Fits F K args outer) :
    Exec.Agree F K
      (start run.call (before ++ carriedKinds clauses) args
        (clauses.zip (assignSlots before.length clauses)))
      (start run'.call (before ++ carriedKinds clauses) args
        (clauses.zip (assignSlots before.length clauses)))
      fun K' vs => Fits F K' vs (carriedKinds clauses) := by
  induction clauses generalizing before K with
  | nil => exact .pure .nil
  | cons c rest ih =>
    have initial : Exec.Agree F K (c.init.mapM fun init => onLeading run.call init args)
        (c.init.mapM fun init => onLeading run'.call init args)
        fun K' v => ∀ w, v = some w → OfKind F c.variableKind K' w := by
      cases found : c.init with
      | none => exact .pure nofun
      | some init =>
        refine (runnable.init_agree agree found fits).bind fun K₁ v _ _ made => .pure ?_
        rintro w ⟨⟩
        exact made
    rcases carriedKinds_cons c rest with ⟨-, kinds, slots⟩ | ⟨kinds, slots⟩
    · rw [kinds] at runnable ⊢
      rw [slots, List.zip_cons_cons, start, start]
      refine initial.bind fun K₁ v grows _ _ => ?_
      refine Exec.Agree.bind (P := fun _ here => here = []) (.pure rfl)
        fun K₂ here grows₂ _ eq => ?_
      subst eq
      have grows := grows.trans grows₂
      have rest := ih _ (agree.mono grows) (runnable.tail.mono grows) (fits.mono grows)
      exact rest.bind fun _ _ _ _ fits => .pure fits
    · have shift : before ++ carriedKinds (c :: rest) =
          (before ++ [c.variableKind]) ++ carriedKinds rest := by
        rw [kinds, List.append_cons]
      have next : before.length + 1 = (before ++ [c.variableKind]).length := by simp
      have slot := getElem?_after before c.variableKind (carriedKinds rest)
      rw [← kinds] at slot
      rw [slots, List.zip_cons_cons, start, start, next]
      refine initial.bind fun K₁ v grows _ started => ?_
      have others : ∀ here, Fits F K₁ here [c.variableKind] →
          Exec.Agree F K₁
            ((start run.call (before ++ carriedKinds (c :: rest)) args
              (rest.zip (assignSlots (before ++ [c.variableKind]).length rest))) >>=
                fun vs => pure (here ++ vs))
            ((start run'.call (before ++ carriedKinds (c :: rest)) args
              (rest.zip (assignSlots (before ++ [c.variableKind]).length rest))) >>=
                fun vs => pure (here ++ vs))
            fun K' vs => Fits F K' vs (carriedKinds (c :: rest)) := by
        intro here first
        rw [shift] at runnable ⊢
        have others := ih _ (agree.mono grows) (runnable.tail.mono grows) (fits.mono grows)
        refine others.bind fun K₂ vs grows₂ _ fits => ?_
        rw [kinds]
        exact .pure ((first.mono grows₂).append fits)
      cases v with
      | some w => exact others [w] (.single (started w rfl).1 (started w rfl).2)
      | none =>
        dsimp only
        rw [slot]
        exact others _ (.single (.plain (Value.isPlain_zero _)) (Value.zero_conforms _))

theorem goesOn_agree (agree : Runner.Agree F K run run') {carried outer : List Kind}
    {clauses : List LoopClause} {frame : List Value} (runnable : Runnable K carried outer clauses)
    (fits : Fits F K frame (carried ++ outer)) :
    Exec.Agree F K (goesOn run.call frame clauses) (goesOn run'.call frame clauses)
      fun _ _ => True := by
  induction clauses generalizing K with
  | nil => exact .pure trivial
  | cons c rest ih =>
    unfold goesOn
    split
    · exact ih agree runnable.tail fits
    · next pred found =>
      have mem := mem_bodyFunctions_of_pred found
      refine (runnable.body_agree agree mem fits).bind fun K₁ v grows _ _ => ?_
      split
      · exact ih (agree.mono grows) (runnable.tail.mono grows) (fits.mono grows)
      · exact .pure trivial

/-- A round leaves every variable of its kind. -/
theorem advance_agree (before : List Kind) (agree : Runner.Agree F K run run') {outer : List Kind}
    {clauses : List LoopClause} {frame : List Value}
    (runnable : Runnable K (before ++ carriedKinds clauses) outer clauses)
    (fits : Fits F K frame (before ++ carriedKinds clauses ++ outer)) :
    Exec.Agree F K
      (advance run.call frame (clauses.zip (assignSlots before.length clauses)))
      (advance run'.call frame (clauses.zip (assignSlots before.length clauses)))
      fun K' vs => Fits F K' vs (before ++ carriedKinds clauses ++ outer) := by
  induction clauses generalizing before frame K with
  | nil => exact .pure fits
  | cons c rest ih =>
    rcases carriedKinds_cons c rest with ⟨-, kinds, slots⟩ | ⟨kinds, slots⟩
    · rw [kinds] at runnable fits ⊢
      rw [slots, List.zip_cons_cons, advance, advance]
      split
      · exact ih _ agree runnable.tail fits
      · next step found =>
        have mem := mem_bodyFunctions_of_step found
        refine (runnable.body_agree agree mem fits).bind fun K₁ v grows _ _ => ?_
        exact ih _ (agree.mono grows) (runnable.tail.mono grows) (fits.mono grows)
    · have shift : before ++ carriedKinds (c :: rest) =
          (before ++ [c.variableKind]) ++ carriedKinds rest := by
        rw [kinds, List.append_cons]
      have next : before.length + 1 = (before ++ [c.variableKind]).length := by simp
      have slot : (before ++ carriedKinds (c :: rest) ++ outer)[before.length]? =
          some c.variableKind := by
        rw [kinds, List.append_assoc]
        exact getElem?_after before c.variableKind (carriedKinds rest ++ outer)
      rw [slots, List.zip_cons_cons, advance, advance, next]
      split
      · rw [shift] at runnable fits ⊢
        exact ih _ agree runnable.tail fits
      · next step found =>
        have mem := mem_bodyFunctions_of_step found
        have returns : step.signature.ret = c.variableKind := by
          simp [LoopClause.variableKind, found]
        refine (runnable.body_agree agree mem fits).bind fun K₁ v grows _ made => ?_
        rw [returns] at made
        have inside : before.length < frame.length := by
          rw [fits.conform.length_eq]
          exact (List.getElem?_eq_some_iff.1 slot).1
        have stored := (fits.mono grows).set slot made.1 made.2
        dsimp only [store]
        rw [if_pos inside, pure_bind, pure_bind]
        rw [shift] at runnable stored ⊢
        exact ih _ (agree.mono grows) (runnable.tail.mono grows) stored

/-- The result so far is of the wanted kind, or the finalizer that yields it is still to come. -/
def Pending (chosen : Option Nat) (index : Nat) (clauses : List LoopClause) (ret : Kind)
    (result : Value) : Prop :=
  result.conforms ret = true ∨
    ∃ k fini, chosen = some (index + k) ∧ (clauses[k]?).bind (·.fini) = some fini

theorem finish_agree (agree : Runner.Agree F K run run') {carried outer : List Kind}
    {clauses : List LoopClause} {frame : List Value} {chosen : Option Nat} {index : Nat}
    {ret : Kind} {result : Value} (runnable : Runnable K carried outer clauses)
    (fits : Fits F K frame (carried ++ outer)) (made : result.MadeOf F K)
    (returns : ∀ k fini, chosen = some (index + k) → (clauses[k]?).bind (·.fini) = some fini →
      fini.signature.ret = ret)
    (pending : Pending chosen index clauses ret result) :
    Exec.Agree F K (finish run.call frame chosen index result clauses)
      (finish run'.call frame chosen index result clauses) (OfKind F ret) := by
  induction clauses generalizing K index result with
  | nil =>
    rcases pending with conforms | ⟨k, fini, -, found⟩
    · exact .pure ⟨made, conforms⟩
    · cases found
  | cons c rest ih =>
    have later : ∀ k, index + 1 + k = index + (k + 1) := fun k => by omega
    have returns' : ∀ k fini, chosen = some (index + 1 + k) →
        (rest[k]?).bind (·.fini) = some fini → fini.signature.ret = ret := by
      intro k fini here found
      rw [later] at here
      exact returns (k + 1) fini here (by simpa using found)
    unfold finish
    split
    · next none =>
      refine ih agree runnable.tail fits made returns' ?_
      rcases pending with conforms | ⟨k, fini, here, found⟩
      · exact .inl conforms
      · cases k with
        | zero => simp [none] at found
        | succ k => exact .inr ⟨k, fini, by rw [later, here], by simpa using found⟩
    · next fini hfini =>
      have mem := mem_bodyFunctions_of_fini hfini
      refine (runnable.body_agree agree mem fits).bind fun K₁ v grows _ yielded => ?_
      refine ih (agree.mono grows) (runnable.tail.mono grows) (fits.mono grows) ?_ returns' ?_
      · split
        · exact yielded.1
        · exact made.mono grows
      · split
        · next here =>
          have same := returns 0 fini (beq_iff_eq.1 here) (by simp [hfini])
          exact .inl (same ▸ yielded.2)
        · next elsewhere =>
          rcases pending with conforms | ⟨k, other, here, found⟩
          · exact .inl conforms
          · cases k with
            | zero => exact absurd (beq_iff_eq.2 here) elsewhere
            | succ k => exact .inr ⟨k, other, by rw [later, here], by simpa using found⟩

theorem rounds_agree (agree : Runner.Agree F K run run') {plan : LoopPlan} {outer : List Kind}
    {ret : Kind} (typed : plan.Typed K outer ret)
    (runnable : Runnable K plan.carried outer plan.clauses) {frame : List Value}
    (fits : Fits F K frame (plan.carried ++ outer)) (limit : Nat) :
    Exec.Agree F K (rounds run.call plan limit frame) (rounds run'.call plan limit frame)
      (OfKind F ret) := by
  induction limit generalizing K frame with
  | zero => exact .halt trivial
  | succ n ih =>
    unfold rounds
    refine (goesOn_agree agree runnable fits).bind fun K₁ another grows₁ _ _ => ?_
    have agree₁ := agree.mono grows₁
    have runnable₁ := runnable.mono grows₁
    have fits₁ := fits.mono grows₁
    split
    · have advanced : Exec.Agree F K₁
          (advance run.call frame (plan.clauses.zip plan.slots))
          (advance run'.call frame (plan.clauses.zip plan.slots))
          fun K' vs => Fits F K' vs (plan.carried ++ outer) := by
        rw [typed.carried_eq] at runnable₁ fits₁ ⊢
        rw [typed.slots_eq]
        exact advance_agree [] agree₁ runnable₁ fits₁
      refine advanced.bind fun K₂ next grows₂ _ fits₂ => ?_
      exact ih (agree₁.mono grows₂) (typed.mono (grows₁.trans grows₂)) (runnable₁.mono grows₂) fits₂
    · refine finish_agree agree₁ runnable₁ fits₁ (.plain rfl) (fun k fini here found => ?_) ?_
      · rw [Nat.zero_add] at here
        simp only [typed.ret_eq, resultKind, here, Option.bind_some, found]
      · rw [typed.ret_eq, resultKind]
        split
        · next fini found =>
          obtain ⟨c, hc, hfini⟩ := Option.bind_eq_some_iff.1 found
          obtain ⟨k, here, hindex⟩ := Option.bind_eq_some_iff.1 hc
          exact .inr ⟨k, fini, by rw [here, Nat.zero_add], by rw [hindex]; exact hfini⟩
        · exact .inl rfl

/-- A typed loop runs its functions on values of their parameters, and returns what it says. -/
theorem run_agree (agree : Runner.Agree F K run run') {plan : LoopPlan} {outer : List Kind}
    {ret : Kind} (typed : plan.Typed K outer ret) {args : List Value}
    (fits : Fits F K args outer) (limit : Nat) :
    Exec.Agree F K (plan.run run.call limit args) (plan.run run'.call limit args)
      (OfKind F ret) := by
  have runnable : Runnable K plan.carried outer plan.clauses :=
    ⟨typed.known, typed.init_params, typed.body_params, typed.init_ret⟩
  have started : Exec.Agree F K
      (start run.call plan.carried args (plan.clauses.zip plan.slots))
      (start run'.call plan.carried args (plan.clauses.zip plan.slots))
      fun K' vs => Fits F K' vs plan.carried := by
    rw [typed.carried_eq] at runnable ⊢
    rw [typed.slots_eq]
    exact start_agree [] agree runnable fits
  unfold LoopPlan.run
  refine started.bind fun K₁ vs grows _ here => ?_
  exact rounds_agree (agree.mono grows) (typed.mono grows) (runnable.mono grows)
    (here.append (fits.mono grows)) limit

end LoopPlan
end TypedHandles
