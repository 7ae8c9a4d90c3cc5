import TypedHandles.Proofs.OwnedRuns
import TypedHandles.Proofs.Fatality

/-!
Operations take a path, and so does host code that makes up nothing.

`HostTask.Within` is the contract of such code: it asks for operations on what exists, and goes on
in the same way with any answer that refers to what exists by then. Cells are numbered, so it comes
down to this: no number is used before it was handed out. Where nothing may write, the code does not
ask for a write either.
-/
namespace TypedHandles

variable {W L : Prop} {s t : State} {run : Runner}

/-- Whether an operation is a write into a cell. -/
def Operation.isWrite : Operation → Bool
  | .setField .. | .suppress .. | .setTarget .. | .setTargetPlain .. | .setTargetFenced .. => true
  | _ => false

/-- Whether an operation may come to write: it is a write itself, or it runs code that may. -/
def Operation.MayWrite (W : Prop) (operation : Operation) : Prop :=
  operation.isWrite = true ∨ operation.runsCode = true ∧ W

mutual

/-- Host code that makes up nothing, in this state and in all that come later. -/
def HostTask.Within (W : Prop) (s : State) : HostTask → Prop
  | .done result => Ends (Failure.Within s) (Value.Within W s) result
  | .ask question resume => question.Within W s ∧ (question.isWrite = true → W) ∧
    ∀ (t : State) (answer : Except Failure Value), s.Grows t →
      Ends (Failure.Within t) (Value.Within W t) answer → (resume answer).Within W t

/-- An operation on what exists. -/
def Operation.Within (W : Prop) (s : State) : Operation → Prop
  | .construct construction => construction.Within W s
  | .lambdaFactory _ _ implementation _ => implementation.Within W s
  | .perform action args => action.Within W s ∧ ∀ v ∈ args, v.Within W s
  | .invokeExact target args | .invoke target args | .invokeAs target _ args =>
    target.Within W s ∧ ∀ v ∈ args, v.Within W s
  | .newObject _ fields => ∀ v ∈ fields, v.Within W s
  | .setField _ _ value => value.Within W s
  | .suppress throwable other =>
    throwable.id < s.suppressed.size ∧ other.id < s.suppressed.size
  | .newSite _ target => target.Within W s
  | .setTarget site target | .setTargetPlain site target | .setTargetFenced site target =>
    site.id < s.sites.size ∧ target.Within W s
  | .find lookup request => lookup.Within s ∧ (request.kind = .setter → W)
  | .findMember lookup query => lookup.Within s ∧ (query.request.kind = .setter → W)
  | .cachedConstant _ _ value => value.Within W s
  | .bootstrap lookup point method => (method lookup point).Within W s
  | .resolve linker point method | .link linker _ point method =>
    (method linker.lookup point).Within W s
  | .invokePoint linker _ point method args =>
    (method linker.lookup point).Within W s ∧ ∀ v ∈ args, v.Within W s
  | .newThrowable .. | .getField .. | .newUnlinkedSite .. | .siteTarget .. | .registerStatic ..
  | .registerClass .. | .cachedIdentity .. | .clearCache .. | .unregister .. | .count .. => True

end

/-- A host whose functions make up nothing: they use what exists, their arguments and what they are
answered. -/
def Host.Within (W : Prop) (s : State) (host : Host) : Prop :=
  ∀ (t : State) (f : HostFunction) (args : List Value), s.Grows t →
    (∀ v ∈ args, v.Within W t) → (host f args).Within W t

theorem Host.Within.mono {host : Host} (grows : s.Grows t) (h : host.Within W s) :
    host.Within W t :=
  fun u f args grows' => h u f args (grows.trans grows')

theorem ends_within_mono {answer : Except Failure Value} (grows : s.Grows t)
    (h : Ends (Failure.Within s) (Value.Within W s) answer) :
    Ends (Failure.Within t) (Value.Within W t) answer := by
  cases answer with
  | ok v => exact Value.Within.mono grows h
  | error f => exact Failure.Within.mono grows h

theorem Lookup.Within.mono {l : Lookup} (grows : s.Grows t) (h : l.Within s) : l.Within t :=
  fun gate found caller request f refused => (h gate found caller request f refused).mono grows

mutual

theorem HostTask.Within.mono {task : HostTask} (grows : s.Grows t) (h : task.Within W s) :
    task.Within W t := by
  match task with
  | .done result => exact ends_within_mono grows h
  | .ask question resume =>
    exact ⟨Operation.Within.mono grows h.1, h.2.1,
      fun u answer grows' => h.2.2 u answer (grows.trans grows')⟩
termination_by structural task

theorem Operation.Within.mono {operation : Operation} (grows : s.Grows t)
    (h : operation.Within W s) : operation.Within W t := by
  match operation with
  | .construct _ => exact Construction.Within.mono grows h
  | .lambdaFactory .. => exact Handle.Within.mono grows h
  | .perform .. => exact ⟨h.1.mono grows, forall_within_mono grows h.2⟩
  | .invokeExact .. => exact ⟨h.1.mono grows, forall_within_mono grows h.2⟩
  | .invoke .. => exact ⟨h.1.mono grows, forall_within_mono grows h.2⟩
  | .invokeAs .. => exact ⟨h.1.mono grows, forall_within_mono grows h.2⟩
  | .newObject .. => exact forall_within_mono grows h
  | .setField .. => exact Value.Within.mono grows h
  | .suppress .. =>
    exact ⟨Nat.lt_of_lt_of_le h.1 grows.throwables, Nat.lt_of_lt_of_le h.2 grows.throwables⟩
  | .newSite .. => exact Handle.Within.mono grows h
  | .setTarget .. => exact ⟨Nat.lt_of_lt_of_le h.1 grows.sites, h.2.mono grows⟩
  | .setTargetPlain .. => exact ⟨Nat.lt_of_lt_of_le h.1 grows.sites, h.2.mono grows⟩
  | .setTargetFenced .. => exact ⟨Nat.lt_of_lt_of_le h.1 grows.sites, h.2.mono grows⟩
  | .find .. => exact ⟨h.1.mono grows, h.2⟩
  | .findMember .. => exact ⟨h.1.mono grows, h.2⟩
  | .cachedConstant .. => exact Value.Within.mono grows h
  | .bootstrap lookup point method => exact HostTask.Within.mono grows h
  | .resolve linker point method => exact HostTask.Within.mono grows h
  | .link linker _ point method => exact HostTask.Within.mono grows h
  | .invokePoint linker _ point method args =>
    exact ⟨HostTask.Within.mono grows h.1, forall_within_mono grows h.2⟩
  | .newThrowable .. => trivial
  | .getField .. => trivial
  | .newUnlinkedSite .. => trivial
  | .siteTarget .. => trivial
  | .registerStatic .. => trivial
  | .registerClass .. => trivial
  | .cachedIdentity .. => trivial
  | .clearCache .. => trivial
  | .unregister .. => trivial
  | .count .. => trivial
termination_by structural operation

end

/-! Host code. -/

/-- What a computation yields is the answer of an operation, which refers to what exists. -/
theorem Exec.Stays.answer {α : Type} {Q : State → α → Prop} {x : Exec α} {f : α → Value}
    (hx : Exec.Stays W L s x Q)
    (h : ∀ t u a, t.Grows u → Q t a → (f a).Within W u) :
    Exec.Stays W L s (do return f (← x) : Exec Value) fun t v => v.Within W t :=
  hx.bind fun t a _ holds => .pure fun u grows => h t u a grows holds

/-- A handle is an answer. -/
theorem Exec.Stays.answerHandle {x : Exec Handle}
    (hx : Exec.Stays W L s x fun t h => h.Within W t) :
    Exec.Stays W L s (do return .handle (← x) : Exec Value) fun t v => v.Within W t :=
  hx.answer fun _ _ _ grows within => Value.within_handle_iff.2 (within.mono grows)

/-- A site is an answer. -/
theorem Exec.Stays.answerSite {x : Exec CallSite}
    (hx : Exec.Stays W L s x fun t c => c.id < t.sites.size) :
    Exec.Stays W L s (do return .callSite (← x) : Exec Value) fun t v => v.Within W t :=
  hx.answer fun _ _ _ grows made =>
    Value.within_callSite_iff.2 (Nat.lt_of_lt_of_le made grows.sites)

/-- An operation without an answer. -/
theorem Exec.Stays.answerVoid {x : Exec Unit} (hx : Exec.Stays W L s x fun _ _ => True) :
    Exec.Stays W L s (do x; return .void : Exec Value) fun t v => v.Within W t :=
  hx.bind fun _ _ _ _ => .pure fun _ _ => Value.within_of_isPlain rfl

theorem announce_stays (lookup : Lookup) (point : Descriptor) {bootstrap : Exec Value}
    (stays : Exec.Stays W L s bootstrap fun t v => v.Within W t) :
    Exec.Stays W L s (announce lookup point bootstrap) fun t v => v.Within W t :=
  (record_stays _).bind fun _ _ grows _ => stays.mono grows

mutual

/-- Host code that keeps to its contract takes a path. -/
theorem HostTask.run_stays {s : State} {task : HostTask} (stays : run.Stays W s)
    (within : task.Within W s) :
    Exec.Stays W W s (task.run run) fun t v => v.Within W t := by
  match task with
  | .done result =>
    refine (record_stays _).bind fun t _ grows _ => .ofChecked fun u grows' => ?_
    have ends := ends_within_mono (grows.trans grows') within
    cases result with
    | ok v => exact ends
    | error f => exact ends
  | .ask question resume =>
    obtain ⟨asked, may, goesOn⟩ := within
    have may : question.MayWrite W → W := fun
      | .inl direct => may direct
      | .inr code => code.2
    refine (Operation.answer_stays stays asked may).attempt.bind fun t answer grows ends => ?_
    exact HostTask.run_stays (stays.mono grows) (goesOn t answer grows ends)
termination_by structural task

/-- An operation on what exists takes a path, and there are writes on it only if it may write. -/
theorem Operation.answer_stays {s : State} {L : Prop} {operation : Operation}
    (stays : run.Stays W s) (within : operation.Within W s) (may : operation.MayWrite W → L) :
    Exec.Stays W L s (operation.answer run) fun t v => v.Within W t := by
  match operation with
  | .construct construction =>
    exact (Exec.Stays.ofBuild_handle fun _ grows =>
      Construction.build_stays (within.mono grows)).answerHandle
  | .lambdaFactory name factory implementation instantiated =>
    refine (Exec.Stays.ofBuild_handle fun _ grows =>
      Blueprint.make_stays (Blueprint.ofAction_within ⟨nofun, ?_⟩)).answerHandle
    exact List.forall_mem_singleton.2 (Handle.Within.mono grows within)
  | .perform action args =>
    exact (stays s (.action action) args (.refl s) within.1 within.2).allow
      fun w => may (.inr ⟨rfl, w⟩)
  | .invokeExact target args =>
    exact (Handle.invokeExact_stays stays within.1 within.2).allow fun w => may (.inr ⟨rfl, w⟩)
  | .invoke target args =>
    exact (Handle.invoke_stays stays within.1 within.2).allow fun w => may (.inr ⟨rfl, w⟩)
  | .invokeAs target caller args =>
    exact (Handle.invokeAs_stays stays within.1 caller within.2).allow
      fun w => may (.inr ⟨rfl, w⟩)
  | .newObject cls fields =>
    exact (newObject_stays cls within).answer fun _ _ _ grows made =>
      Value.within_object_iff.2 (Nat.lt_of_lt_of_le made grows.objects)
  | .newThrowable cls message =>
    exact (newThrowable_stays cls message).answer fun _ _ _ grows made =>
      Value.within_throwable_iff.2 (Nat.lt_of_lt_of_le made grows.throwables)
  | .getField object index =>
    refine Exec.Stays.get.bind fun t u _ => ?_
    rintro ⟨rfl, closed⟩
    refine .pure fun _ grows => Value.Within.mono grows ?_
    cases found : u.field? object index with
    | none => exact Value.within_of_isPlain rfl
    | some v => exact closed.field found
  | .setField object index value =>
    exact (object.setField_stays index (may (.inl rfl)) within).answer
      fun _ _ _ _ _ => Value.within_of_isPlain rfl
  | .suppress throwable other =>
    exact (Throwable.suppress_stays (may (.inl rfl)) within.1 within.2).answerVoid
  | .newSite kind target => exact (siteFor_stays kind within).answerSite
  | .newUnlinkedSite kind signature =>
    have made := @newSite_stays W L s kind signature none nofun
    exact made.answerSite
  | .siteTarget site => exact site.target_stays.answerHandle
  | .setTarget site target =>
    exact (CallSite.setTarget_stays (may (.inl rfl)) within.1 within.2).answerVoid
  | .setTargetPlain site target =>
    exact (CallSite.setTargetPlain_stays (may (.inl rfl)) within.1 within.2).answerVoid
  | .setTargetFenced site target =>
    exact (CallSite.setTargetFenced_stays (may (.inl rfl)) within.1 within.2).answerVoid
  | .registerStatic registry owner name member =>
    exact (registerStatic_stays registry owner name member).answerVoid
  | .registerClass registry cls => exact (registerClass_stays registry cls).answerVoid
  | .find lookup request => exact (Lookup.find_stays within.1 request within.2).answerHandle
  | .findMember lookup query =>
    exact (Lookup.findMember_stays within.1 query within.2).answerHandle
  | .cachedConstant cache kind value =>
    exact (withCache_stays cache fun _ _ grows cached =>
      SharedHandles.constant_stays cached kind (Value.Within.mono grows within)).answerHandle
  | .cachedIdentity cache kind =>
    exact (withCache_stays cache fun _ _ _ cached =>
      SharedHandles.identity_stays cached kind).answerHandle
  | .clearCache cache => exact (storeCache_stays cache SharedHandles.empty_within).answerVoid
  | .bootstrap lookup point method =>
    exact (announce_stays lookup point (HostTask.run_stays stays within)).allow
      fun w => may (.inr ⟨rfl, w⟩)
  | .resolve linker point method =>
    exact (linker.resolve_stays point (announce_stays linker.lookup point
      (HostTask.run_stays stays within))).answerSite.allow fun w => may (.inr ⟨rfl, w⟩)
  | .link linker id point method =>
    exact (linker.link_stays id point (announce_stays linker.lookup point
      (HostTask.run_stays stays within))).answerSite.allow fun w => may (.inr ⟨rfl, w⟩)
  | .unregister linker id =>
    refine (linker.unregister_stays id).answer fun _ _ found grows made => ?_
    cases found with
    | none => exact Value.within_of_isPlain rfl
    | some site =>
      exact Value.within_callSite_iff.2 (Nat.lt_of_lt_of_le (made site rfl) grows.sites)
  | .invokePoint linker id point method args =>
    refine Exec.Stays.allow ?_ fun w => may (.inr ⟨rfl, w⟩)
    refine (linker.link_stays id point (announce_stays linker.lookup point
      (HostTask.run_stays stays within.1))).bind fun t site grows _ => ?_
    refine site.target_stays.bind fun u target grows' found => ?_
    exact Handle.invokeExact_stays (stays.mono (grows.trans grows')) found
      (forall_within_mono (grows.trans grows') within.2)
  | .count counter => exact count_stays counter
termination_by structural operation

end

/-! The machine. -/

theorem callHost_stays {host : Host} (stays : run.Stays W s) (within : host.Within W s)
    (f : HostFunction) {args : List Value} (given : ∀ v ∈ args, v.Within W s) :
    Exec.Stays W W s (callHost host run f args) fun t v => v.Within W t := by
  refine (record_stays _).bind fun t _ grows _ => ?_
  exact HostTask.run_stays (stays.mono grows)
    (within t f args grows (forall_within_mono grows given))

/-- The machine takes a path on whatever code it runs, under a watch that does. -/
theorem runWith_stays {watch : Runner → Runner} {host : Host} (within : host.Within W s)
    (watches : ∀ {t : State} {run : Runner}, run.Stays W t → (watch run).Stays W t) (n : Nat) :
    Runner.Stays W s (runWith watch host n) := by
  induction n with
  | zero => exact fun _ _ _ _ _ _ => .halt fun _ _ => trivial
  | succ n ih =>
    refine watches fun t code args grows codeWithin given => ?_
    cases code with
    | program sig p => exact Program.perform_stays (ih.mono grows) n codeWithin given
    | action a =>
      refine Action.perform_stays (fun u f args grows' given => ?_) codeWithin given
      exact callHost_stays (ih.mono (grows.trans grows')) (within.mono (grows.trans grows')) f given

theorem runCode_stays {host : Host} (within : host.Within W s) (n : Nat) :
    Runner.Stays W s (runCode host n) :=
  runWith_stays within id n

end TypedHandles
