import TypedHandles.Machine.Run
import TypedHandles.Proofs.Building

/-!
Machines that halt early. Nothing goes on after a halt that is no failure, so a machine whose calls
halt so, or do what those of another machine do, halts so as a whole or does what the other does.

A machine that is cut off at a depth is of this kind: under a greater depth it does the same, unless
it was cut off.
-/
namespace TypedHandles

/-- Whether a halt ends everything: it is no failure, which may be caught. -/
def Halt.IsFinal (e : Halt) : Prop := ∀ failure, e ≠ .failed failure

theorem Halt.isFinal_stuck : stuck.IsFinal := fun _ => nofun

theorem Halt.isFinal_exhausted : exhausted.IsFinal := fun _ => nofun

/-- In every state the first computation halts as said, or it does what the second one does. -/
def Exec.HaltsOr {α : Type} (e : Halt) (x y : Exec α) : Prop :=
  ∀ s, (x s).1 = .error e ∨ x s = y s

namespace Exec.HaltsOr

variable {α β : Type} {e : Halt} {x y : Exec α} {f g : α → Exec β}

theorem refl (x : Exec α) : HaltsOr e x x := fun _ => .inr rfl

theorem halt (y : Exec α) : HaltsOr e (throw e) y := fun _ => .inl rfl

theorem trans {z : Exec α} (first : HaltsOr e x y) (second : HaltsOr e y z) : HaltsOr e x z := by
  intro s
  rcases first s with halts | same
  · exact .inl halts
  · rw [same]
    exact second s

theorem bind (hx : HaltsOr e x y) (hf : ∀ a, HaltsOr e (f a) (g a)) :
    HaltsOr e (x >>= f) (y >>= g) := by
  intro s
  rcases hx s with halts | same
  · refine .inl ?_
    have result : x s = (.error e, (x s).2) := Prod.ext halts rfl
    rw [bind_of_error result]
  · match result : y s with
    | (.error other, t) =>
      rw [bind_of_error (same.trans result), bind_of_error result]
      exact .inr rfl
    | (.ok a, t) =>
      rw [bind_of_ok (same.trans result), bind_of_ok result]
      exact hf a t

/-- What follows a computation that is the same is the same or halts. -/
theorem after (hf : ∀ a, HaltsOr e (f a) (g a)) : HaltsOr e (x >>= f) (x >>= g) :=
  (refl x).bind hf

theorem attempt (final : e.IsFinal) (hx : HaltsOr e x y) : HaltsOr e x.attempt y.attempt := by
  intro s
  unfold Exec.attempt
  rcases hx s with halts | same
  · refine .inl ?_
    have result : x s = (.error e, (x s).2) := Prod.ext halts rfl
    rw [result]
    cases e with
    | failed failure => exact absurd rfl (final failure)
    | stuck => rfl
    | exhausted => rfl
  · rw [same]
    exact .inr rfl

end Exec.HaltsOr

/-- A way to run code that halts as said or does what another one does. -/
def Runner.HaltsOr (e : Halt) (run run' : Runner) : Prop :=
  ∀ (code : Code) (args : List Value), Exec.HaltsOr e (run code args) (run' code args)

/-- Whether a loop that may run so many rounds halts as said, or does what it does when it may run
the other number of rounds: it may as well, or it may run fewer and halts when it is cut off. -/
def Halt.Cuts (e : Halt) (limit limit' : Nat) : Prop :=
  limit = limit' ∨ e = .exhausted ∧ limit ≤ limit'

theorem Halt.Cuts.refl (e : Halt) (limit : Nat) : e.Cuts limit limit := .inl rfl

theorem Halt.Cuts.succ {e : Halt} {n limit : Nat} (cuts : e.Cuts (n + 1) limit) :
    ∃ m, limit = m + 1 ∧ e.Cuts n m := by
  obtain rfl | ⟨exhausted, le⟩ := cuts
  · exact ⟨n, rfl, .refl e n⟩
  · obtain ⟨m, rfl⟩ := Nat.exists_eq_add_one_of_ne_zero (Nat.ne_of_gt (Nat.zero_lt_of_lt le))
    exact ⟨m, rfl, .inr ⟨exhausted, Nat.le_of_succ_le_succ le⟩⟩

variable {e : Halt} {limit limit' : Nat} {run run' : Runner} (final : e.IsFinal)
  (cuts : e.Cuts limit limit') (runs : run.HaltsOr e run')

include runs

/-! Loops. -/

namespace LoopPlan

theorem onLeading_haltsOr (h : Handle) (values : List Value) :
    Exec.HaltsOr e (onLeading run.call h values) (onLeading run'.call h values) :=
  .after fun _ => runs _ _

theorem start_haltsOr (carried : List Kind) (args : List Value)
    (clauses : List (LoopClause × Option Slot)) :
    Exec.HaltsOr e (start run.call carried args clauses)
      (start run'.call carried args clauses) := by
  induction clauses with
  | nil => exact .refl _
  | cons entry rest ih =>
    obtain ⟨c, slot⟩ := entry
    have initial : Exec.HaltsOr e (c.init.mapM fun init => onLeading run.call init args)
        (c.init.mapM fun init => onLeading run'.call init args) := by
      cases c.init with
      | none => exact .refl _
      | some init => exact (onLeading_haltsOr runs init args).bind fun _ => .refl _
    unfold start
    refine initial.bind fun v => ?_
    cases slot with
    | none => exact ih.bind fun _ => .refl _
    | some s =>
      cases v with
      | some w => exact ih.bind fun _ => .refl _
      | none => exact .after fun _ => ih.bind fun _ => .refl _

theorem goesOn_haltsOr (frame : List Value) (clauses : List LoopClause) :
    Exec.HaltsOr e (goesOn run.call frame clauses) (goesOn run'.call frame clauses) := by
  induction clauses with
  | nil => exact .refl _
  | cons c rest ih =>
    unfold goesOn
    cases c.pred with
    | none => exact ih
    | some pred =>
      refine (onLeading_haltsOr runs pred frame).bind fun v => ?_
      split
      · exact ih
      · exact .refl _

theorem advance_haltsOr (frame : List Value) (clauses : List (LoopClause × Option Slot)) :
    Exec.HaltsOr e (advance run.call frame clauses) (advance run'.call frame clauses) := by
  induction clauses generalizing frame with
  | nil => exact .refl _
  | cons entry rest ih =>
    obtain ⟨c, slot⟩ := entry
    unfold advance
    cases c.step with
    | none => exact ih frame
    | some step =>
      refine (onLeading_haltsOr runs step frame).bind fun v => ?_
      cases slot with
      | none => exact ih frame
      | some s => exact .after ih

theorem finish_haltsOr (frame : List Value) (chosen : Option Nat) (index : Nat) (result : Value)
    (clauses : List LoopClause) :
    Exec.HaltsOr e (finish run.call frame chosen index result clauses)
      (finish run'.call frame chosen index result clauses) := by
  induction clauses generalizing index result with
  | nil => exact .refl _
  | cons c rest ih =>
    unfold finish
    cases c.fini with
    | none => exact ih _ _
    | some fini => exact (onLeading_haltsOr runs fini frame).bind fun v => ih _ _

include cuts

theorem rounds_haltsOr (plan : LoopPlan) (frame : List Value) :
    Exec.HaltsOr e (rounds run.call plan limit frame) (rounds run'.call plan limit' frame) := by
  induction limit generalizing limit' frame with
  | zero =>
    obtain rfl | ⟨rfl, -⟩ := cuts
    · exact .refl _
    · exact .halt _
  | succ n ih =>
    obtain ⟨m, rfl, below⟩ := cuts.succ
    unfold rounds
    refine (goesOn_haltsOr runs frame plan.clauses).bind fun another => ?_
    split
    · exact (advance_haltsOr runs frame _).bind (ih below)
    · exact finish_haltsOr runs frame plan.result 0 .void plan.clauses

theorem run_haltsOr (plan : LoopPlan) (args : List Value) :
    Exec.HaltsOr e (plan.run run.call limit args) (plan.run run'.call limit' args) :=
  (start_haltsOr runs plan.carried args _).bind fun _ => rounds_haltsOr cuts runs plan _

end LoopPlan

/-! Steps, programs and actions. -/

namespace Step

theorem runBranch_haltsOr (test target fallback : Handle) (args : List Value) :
    Exec.HaltsOr e (runBranch run test target fallback args)
      (runBranch run' test target fallback args) := by
  refine .after fun _ => Exec.HaltsOr.bind (runs _ _) fun outcome => ?_
  split
  · exact runs _ _
  · exact runs _ _

include final

theorem runCatching_haltsOr (target : Handle) (exception : RefType) (handler : Handle)
    (args : List Value) :
    Exec.HaltsOr e (runCatching run target exception handler args)
      (runCatching run' target exception handler args) := by
  refine Exec.HaltsOr.bind (Exec.HaltsOr.attempt final (runs _ _)) fun outcome => ?_
  cases outcome with
  | ok v => exact .refl _
  | error failure =>
    cases failure with
    | thrown t =>
      dsimp only
      split
      · split
        · exact .refl _
        · exact .after fun _ => runs _ _
      · exact .refl _
    | _ => exact .refl _

theorem runCleanup_haltsOr (ret : Kind) (cleanup : Handle) (args : List Value)
    (failure : Option Throwable) (result : Value) :
    Exec.HaltsOr e (runCleanup run ret cleanup args failure result)
      (runCleanup run' ret cleanup args failure result) := by
  unfold runCleanup
  dsimp only
  split
  · exact .refl _
  · exact .after fun _ => (Exec.HaltsOr.attempt final (runs _ _)).bind fun _ => .refl _

theorem runFinishing_haltsOr (target cleanup : Handle) (args : List Value) :
    Exec.HaltsOr e (runFinishing run target cleanup args)
      (runFinishing run' target cleanup args) := by
  refine Exec.HaltsOr.bind (Exec.HaltsOr.attempt final (runs _ _)) fun outcome => ?_
  cases outcome with
  | ok v => exact runCleanup_haltsOr final runs _ _ _ _ _
  | error failure =>
    dsimp only
    split
    · exact .refl _
    · exact .after fun t => (runCleanup_haltsOr final runs _ _ _ _ _).bind fun _ => .refl _

include cuts

theorem perform_haltsOr (kind : Kind) (step : Step) (frame : List Value) :
    Exec.HaltsOr e (perform run limit kind step frame) (perform run' limit' kind step frame) := by
  unfold perform
  cases step with
  | const | convert | collect | spread => exact .refl _
  | leaf action args => exact .after fun _ => Exec.HaltsOr.bind (runs _ _) fun _ => .refl _
  | call target args => exact .after fun _ => runs _ _
  | branch test target fallback args => exact .after fun _ => runBranch_haltsOr runs _ _ _ _
  | catching target exception handler args =>
    exact .after fun _ => runCatching_haltsOr final runs _ _ _ _
  | finishing target cleanup args => exact .after fun _ => runFinishing_haltsOr final runs _ _ _
  | loop plan args => exact .after fun _ => plan.run_haltsOr cuts runs _
  | dynamic site args => exact .after fun _ => .after fun _ => runs _ _

end Step

namespace Program

include final cuts

theorem fill_haltsOr (frame : List Value) (bindings : List Binding) :
    Exec.HaltsOr e (fill run limit frame bindings) (fill run' limit' frame bindings) := by
  induction bindings generalizing frame with
  | nil => exact .refl _
  | cons b rest ih =>
    exact (Step.perform_haltsOr final cuts runs b.kind b.step frame).bind fun _ => ih _

theorem perform_haltsOr (p : Program) (args : List Value) :
    Exec.HaltsOr e (p.perform run limit args) (p.perform run' limit' args) :=
  (fill_haltsOr final cuts runs args p.bindings).bind fun _ => .refl _

end Program

omit runs in
theorem Action.perform_haltsOr {native native' : HostFunction → List Value → Exec Value}
    (natives : ∀ f args, Exec.HaltsOr e (native f args) (native' f args)) (action : Action)
    (args : List Value) :
    Exec.HaltsOr e (action.perform native args) (action.perform native' args) := by
  unfold perform
  cases action with
  | host f => exact natives f args
  | virtual owner name =>
    refine .after fun o => ?_
    cases o.cls.findMethod? name with
    | none => exact .refl _
    | some method => exact natives _ args
  | intrinsic | getField | setField | construct => exact .refl _

/-! Invocations and host code. -/

namespace Handle

theorem invokeExact_haltsOr (h : Handle) (args : List Value) :
    Exec.HaltsOr e (h.invokeExact run args) (h.invokeExact run' args) :=
  .after fun _ => runs _ _

theorem invokeAs_haltsOr (h : Handle) (caller : Signature) (args : List Value) :
    Exec.HaltsOr e (h.invokeAs run caller args) (h.invokeAs run' caller args) :=
  .after fun adapted => adapted.invokeExact_haltsOr runs args

theorem invoke_haltsOr (h : Handle) (args : List Value) :
    Exec.HaltsOr e (h.invoke run args) (h.invoke run' args) := by
  unfold invoke
  split
  · exact .refl _
  · exact .after fun caller => h.invokeAs_haltsOr runs caller args

end Handle

omit runs

section

include final

theorem Linker.resolve_haltsOr (l : Linker) (d : Descriptor) {bootstrap bootstrap' : Exec Value}
    (same : Exec.HaltsOr e bootstrap bootstrap') :
    Exec.HaltsOr e (l.resolve d bootstrap) (l.resolve d bootstrap') :=
  (same.attempt final).bind fun _ => .refl _

theorem Linker.link_haltsOr (l : Linker) (point : UInt64) (d : Descriptor)
    {bootstrap bootstrap' : Exec Value} (same : Exec.HaltsOr e bootstrap bootstrap') :
    Exec.HaltsOr e (l.link point d bootstrap) (l.link point d bootstrap') := by
  unfold link
  refine .after fun s => ?_
  cases l.linked? s point with
  | some site => exact .refl _
  | none => exact (l.resolve_haltsOr final d same).bind fun _ => .refl _

end

theorem announce_haltsOr (lookup : Lookup) (point : Descriptor) {bootstrap bootstrap' : Exec Value}
    (same : Exec.HaltsOr e bootstrap bootstrap') :
    Exec.HaltsOr e (announce lookup point bootstrap) (announce lookup point bootstrap') :=
  .after fun _ => same

mutual

theorem HostTask.run_haltsOr (final : e.IsFinal) (runs : run.HaltsOr e run') (task : HostTask) :
    Exec.HaltsOr e (task.run run) (task.run run') :=
  match task with
  | .done _ => by
    unfold HostTask.run
    exact .refl _
  | .ask question resume => by
    unfold HostTask.run
    exact ((Operation.answer_haltsOr final runs question).attempt final).bind fun answer =>
      HostTask.run_haltsOr final runs (resume answer)
termination_by structural task

/-- An operation is performed alike, unless a call on the way halts as said. -/
theorem Operation.answer_haltsOr (final : e.IsFinal) (runs : run.HaltsOr e run')
    (question : Operation) :
    Exec.HaltsOr e (question.answer run) (question.answer run') := by
  unfold Operation.answer
  exact match question with
  | .construct _ | .lambdaFactory .. | .newObject .. | .newThrowable .. | .getField ..
  | .setField .. | .suppress .. | .newSite .. | .newUnlinkedSite .. | .siteTarget _
  | .setTarget .. | .setTargetPlain .. | .setTargetFenced .. | .registerStatic ..
  | .registerClass .. | .find .. | .findMember .. | .cachedConstant .. | .cachedIdentity ..
  | .clearCache _ | .unregister .. | .count _ => .refl _
  | .perform .. => runs _ _
  | .invokeExact target args => target.invokeExact_haltsOr runs args
  | .invoke target args => target.invoke_haltsOr runs args
  | .invokeAs target caller args => target.invokeAs_haltsOr runs caller args
  | .bootstrap lookup point method =>
    announce_haltsOr lookup point (HostTask.run_haltsOr final runs (method lookup point))
  | .resolve linker point method =>
    (linker.resolve_haltsOr final point (announce_haltsOr linker.lookup point
      (HostTask.run_haltsOr final runs (method linker.lookup point)))).bind fun _ => .refl _
  | .link linker id point method =>
    (linker.link_haltsOr final id point (announce_haltsOr linker.lookup point
      (HostTask.run_haltsOr final runs (method linker.lookup point)))).bind fun _ => .refl _
  | .invokePoint linker id point method args =>
    (linker.link_haltsOr final id point (announce_haltsOr linker.lookup point
      (HostTask.run_haltsOr final runs (method linker.lookup point)))).bind fun _ =>
        .after fun target => target.invokeExact_haltsOr runs args
termination_by structural question

end

include final runs in
theorem callHost_haltsOr (host : Host) (f : HostFunction) (args : List Value) :
    Exec.HaltsOr e (callHost host run f args) (callHost host run' f args) :=
  .after fun _ => HostTask.run_haltsOr final runs _

/-! The machine. -/

/-- A run that ends is the same under every greater depth: under a smaller one the machine is cut
off, or it does the same. -/
theorem runCode_haltsOr (host : Host) {n m : Nat} (le : n ≤ m) :
    Runner.HaltsOr .exhausted (runCode host n) (runCode host m) := by
  induction n generalizing m with
  | zero => exact fun _ _ => .halt _
  | succ n ih =>
    obtain ⟨m, rfl⟩ := Nat.exists_eq_add_one_of_ne_zero (Nat.ne_of_gt (Nat.zero_lt_of_lt le))
    have below := Nat.le_of_succ_le_succ le
    have calls := ih below
    have final := Halt.isFinal_exhausted
    intro code args
    cases code with
    | program s p => exact p.perform_haltsOr final (.inr ⟨rfl, below⟩) calls args
    | action a => exact a.perform_haltsOr (callHost_haltsOr final calls host) args

end TypedHandles
