import TypedHandles.Proofs.History

/-!
Type safety: whatever handle was built, an exact invocation on values of its parameters passes every
handle values of its parameters, and a result is of the kind that the signature says.

Calls inside a program are not checked when they run. That none of them goes wrong is said by a
guard: a machine that raises an alarm at any call with other arguments does the same as the machine
without it, whatever the alarm does.
-/
namespace TypedHandles

/-- Raises an alarm in place of any program that is run on values of other kinds than its
parameters. -/
def Runner.guarded (alarm : Exec Value) (run : Runner) : Runner := fun code args =>
  match code with
  | .program signature _ => if Conform args signature.params then run code args else alarm
  | .action _ => run code args

variable {F : ClassLibrary} {K : Known}

/-- Code that takes its arguments raises no alarm. -/
theorem Runner.guarded_agree (alarm : Exec Value) {run run' : Runner}
    (agree : Runner.Agree F K run run') : Runner.Agree F K (Runner.guarded alarm run) run' := by
  intro K' code args grows takes
  cases code with
  | program s p =>
    unfold Runner.guarded
    dsimp only
    rw [if_pos takes.2.conform]
    exact agree K' _ args grows takes
  | action a => exact agree K' _ args grows takes

/-- Type safety of exact invocations in every state that is reached. -/
theorem Handle.invokeExact_typeSafe {values args : List Value} {s : State} {host : Host}
    {h : Handle} (reached : Reached F values s) (uses : host.Uses F (Among values))
    (known : Among values (.handle h)) (made : ∀ v ∈ args, v.MadeOf F (Among values)) (n : Nat) :
    (h.checkArguments args = .ok () ↔ Conform args h.signature.params) ∧
    (∀ alarm : Exec Value, h.invokeExact (runWith (Runner.guarded alarm) host n) args s =
      h.invokeExact (runCode host n) args s) ∧
    ∀ v t, h.invokeExact (runCode host n) args s = (.ok v, t) →
      v.conforms h.signature.ret = true := by
  obtain ⟨K, sound, valuesMade⟩ := reached.sound
  have grows := Among.grows valuesMade
  have hostUses := uses.mono grows
  have argsMade := forall_madeOf_mono grows made
  refine ⟨⟨fun passed => ?_, checkArguments_of_conform⟩, fun alarm => ?_, fun v t done => ?_⟩
  · exact (h.checkArguments_ends args).of_eq_ok passed
  · have agree : Runner.Agree F K (runWith (Runner.guarded alarm) host n) (runCode host n) :=
      runWith_agree (fun _ _ => Runner.guarded_agree alarm) hostUses n
    exact (Handle.invokeExact_agree agree (grows _ known) argsMade s sound).1
  · obtain ⟨-, K', -, -, ends⟩ :=
      Handle.invokeExact_agree (runCode_agree hostUses n) (grows _ known) argsMade s sound
    rw [done] at ends
    exact ends.2

/-- A call of a function through a call site that was made for it. -/
theorem Handle.invokeExact_typeSafe_throughSite :
    ∃ (values : List Value) (s t : State) (h : Handle),
      Reached .builtin values s ∧ Among values (.handle h) ∧
      h.invokeExact (runCode .idle 6) [.int 41] s = (.ok (.int 42), t) ∧
      (Value.int 42).conforms h.signature.ret = true ∧
      ∀ alarm, h.invokeExact (runWith (Runner.guarded alarm) .idle 6) [.int 41] s =
        (.ok (.int 42), t) := by
  have valid : Signature.Valid ClassLibrary.builtin.Has ⟨.prim .int, [.prim .int]⟩ :=
    ⟨⟨by decide, by simp⟩, by simp, by simp⟩
  have idle := Host.idle_uses .builtin
  have made := Reached.start.perform
    (.construct (.ofAction ⟨.prim .int, [.prim .int]⟩ (.intrinsic .intIncrement))) 1 (idle _)
    ⟨valid, trivial⟩
  have placed := made.perform (.newSite .mutable _) 1 (idle _) (Among.last rfl)
  have invoker := placed.perform (.construct (.dynamicInvoker _)) 1 (idle _) (Among.last rfl)
  have plain : (Value.int 41).isPlain = true := rfl
  obtain ⟨-, same, conforms⟩ := Handle.invokeExact_typeSafe invoker (idle _) (Among.last rfl)
    (List.forall_mem_singleton.2 (.plain plain)) 6
  refine ⟨_, _, _, _, invoker, Among.last rfl, rfl, conforms _ _ rfl, fun alarm => ?_⟩
  exact (same alarm).trans rfl

end TypedHandles
