import TypedHandles.Proofs.Attained
import TypedHandles.Proofs.Halting

/-!
Machines under a watch that can only halt. Such a machine halts as a whole, or it does what the
machine without the watch does.

One watch is stuck on all code that is not scoped, and it makes no difference to what users can do.
Another one cuts off the calls of a kind, and so it tells whether such a call is made on the way.
-/
namespace TypedHandles

/-- Under a watch that can only halt, the machine halts or does what it does under another watch
that lets as much through. -/
theorem runWith_haltsOr {e : Halt} (final : e.IsFinal) {watch watch' : Runner → Runner}
    (watches : ∀ run run' : Runner, run.HaltsOr e run' → (watch run).HaltsOr e (watch' run'))
    (host : Host) (n : Nat) :
    Runner.HaltsOr e (runWith watch host n) (runWith watch' host n) := by
  induction n with
  | zero => exact fun _ _ => .refl _
  | succ n ih =>
    -- The watch stands before the code, whose own calls are watched by one level less.
    refine watches _ _ fun code args => ?_
    cases code with
    | program s p => exact p.perform_haltsOr final (.refl e n) ih args
    | action a => exact a.perform_haltsOr (callHost_haltsOr final ih host) args

/-! Calls that are cut off. -/

open Classical in
/-- A watch that cuts off the calls of a kind. -/
noncomputable def Runner.cutWhere (M : Code → List Value → State → Prop) (run : Runner) : Runner :=
  fun code args s => if M code args s then (.error .exhausted, s) else run code args s

/-- While an operation is performed in a state, a call of the given kind is made: with such calls
cut off all of it is, since nothing goes on after the first one. This is said of operations that
come to an end, and tells nothing of those that are cut off in any case. -/
def Operation.CallsSome (operation : Operation) (host : Host) (n : Nat) (s : State)
    (M : Code → List Value → State → Prop) : Prop :=
  (operation.answer (runWith (.cutWhere M) host n) s).1 = .error .exhausted

section

variable {M : Code → List Value → State → Prop} {run run' : Runner}

theorem Runner.cutWhere_haltsOr (same : run.HaltsOr .exhausted run') :
    (run.cutWhere M).HaltsOr .exhausted run' := by
  intro code args s
  unfold cutWhere
  split
  · exact .inl rfl
  · exact same code args s

theorem Runner.cutWhere_congr {e : Halt} (same : run.HaltsOr e run') :
    (run.cutWhere M).HaltsOr e (run'.cutWhere M) := by
  intro code args s
  unfold cutWhere
  split
  · exact .inr rfl
  · exact same code args s

theorem Runner.cutWhere_keeps {σ : World} (keeps : run.Keeps σ) : (run.cutWhere M).Keeps σ := by
  intro τ code args grows within inScope s inWorld
  unfold cutWhere
  split
  · exact ⟨τ, .refl τ, inWorld, trivial⟩
  · exact keeps τ code args grows within inScope s inWorld

/-- An operation in which no call of a kind is made does the same with such calls cut off. -/
theorem Operation.callsSome_or_eq (operation : Operation) (host : Host) (n : Nat) (s : State)
    (M : Code → List Value → State → Prop) :
    operation.CallsSome host n s M ∨
      operation.answer (runWith (.cutWhere M) host n) s = operation.answer (runCode host n) s := by
  have final := Halt.isFinal_exhausted
  have same : Runner.HaltsOr .exhausted (runWith (.cutWhere M) host n) (runCode host n) :=
    runWith_haltsOr final (fun _ _ => Runner.cutWhere_haltsOr) host n
  exact operation.answer_haltsOr final same s

end

/-! Runs of scoped code. -/

open Classical in
/-- A watch that is stuck on all code that is scoped in no world. -/
noncomputable def Runner.scoped (run : Runner) : Runner := fun code args =>
  if ∃ σ : World, code.Scoped σ.scope args.length then run code args else throw .stuck

theorem Runner.scoped_haltsOr {run run' : Runner} (same : run.HaltsOr .stuck run') :
    run.scoped.HaltsOr .stuck run' := by
  intro code args
  unfold Runner.scoped
  split
  · exact same code args
  · exact .halt _

theorem Runner.scoped_keeps {σ : World} {run : Runner} (keeps : run.Keeps σ) :
    run.scoped.Keeps σ := by
  intro τ code args grows within inScope
  unfold Runner.scoped
  rw [if_pos ⟨τ, within⟩]
  exact keeps τ code args grows within inScope

/-- What is not stuck does what it does without the watch. -/
theorem Exec.HaltsOr.eq_of_keeps {α : Type} {σ : World} {x y : Exec α} {Q : World → α → Prop}
    {s : State} (same : HaltsOr .stuck x y) (keeps : Keeps σ x Q) (inWorld : s.InWorld σ) :
    x s = y s := by
  obtain ⟨τ, -, -, ends⟩ := keeps s inWorld
  exact (same s).resolve_left fun stuck => ends.of_eq_error stuck

/-- Whatever runs on the way, when users invoke a handle that they hold on values that they hold, is
scoped: a watch that is stuck on all other code makes no difference. This is so where some calls are
cut off, and where none are. -/
theorem Attained.invoke_scoped {point : Nat → UInt64 → Signature → Prop} {values : List Value}
    {s : State} (attained : Attained point values s) {h : Handle}
    (known : Among values (.handle h)) {host : Host}
    (hostInScope : host.InScope (.held point values s)) {args : List Value}
    (argsInScope : ∀ v ∈ args, v.InScope (.held point values s)) (n : Nat)
    (M : Code → List Value → State → Prop) :
    let watched := runWith (fun run => (run.cutWhere M).scoped) host n
    let cut := runWith (.cutWhere M) host n
    h.invokeExact watched args s = h.invokeExact cut args s ∧
      h.invoke watched args s = h.invoke cut args s := by
  intro watched cut
  obtain ⟨σ, -, inWorld, -, offered⟩ := attained.inWorld
  have keeps : watched.Keeps σ :=
    runWith_keeps (hostInScope.mono offered)
      (fun _ keeps => Runner.scoped_keeps (Runner.cutWhere_keeps keeps)) n
  have same : watched.HaltsOr .stuck cut :=
    runWith_haltsOr Halt.isFinal_stuck
      (fun _ _ same => Runner.scoped_haltsOr (Runner.cutWhere_congr same)) host n
  have inScope := forall_inScope_mono offered argsInScope
  exact ⟨(h.invokeExact_haltsOr same args).eq_of_keeps
      (Handle.invokeExact_keeps keeps (offered.handle h known) inScope) inWorld,
    (h.invoke_haltsOr same args).eq_of_keeps
      (Handle.invoke_keeps keeps (offered.handle h known) inScope) inWorld⟩

end TypedHandles
