import TypedHandles.Proofs.Looping

/-!
Typed steps and programs run safely. Each step passes every handle values of its parameters and
fills its slot with a value of the slot's kind, so the frame of a program stays typed, and with it
the program's result.
-/
namespace TypedHandles

variable {F : ClassLibrary} {K : Known} {run run' : Runner}

theorem Value.throwable_conforms {t : Throwable} (h : t.refType.isThrowable = true) :
    (Value.throwable t).conforms .throwable = true :=
  Value.conforms_ref_iff.2 (.inr ⟨t.refType, rfl, h⟩)

namespace Step

theorem runBranch_agree (agree : Runner.Agree F K run run') {test target fallback : Handle}
    {args : List Value} (testKnown : K (.handle test)) (targetKnown : K (.handle target))
    (fallbackKnown : K (.handle fallback)) (fits : Fits F K args target.signature.params)
    (leads : test.signature.params <+: target.signature.params)
    (same : fallback.signature = target.signature) :
    Exec.Agree F K (runBranch run test target fallback args)
      (runBranch run' test target fallback args) (OfKind F target.signature.ret) := by
  obtain ⟨ws, taken, here⟩ := fits.leading leads
  unfold runBranch Handle.arity
  rw [taken, pure_bind, pure_bind]
  refine (agree.call testKnown here).bind fun K₁ v grows _ _ => ?_
  have fits₁ := fits.mono grows
  split
  · exact (agree.mono grows).call (grows _ targetKnown) fits₁
  · rw [← same]
    exact (agree.mono grows).call (grows _ fallbackKnown) (by rwa [same])

theorem runCatching_agree (agree : Runner.Agree F K run run') {target handler : Handle}
    {exception : RefType} {args : List Value} {first : Kind} {rest : List Kind}
    (targetKnown : K (.handle target)) (handlerKnown : K (.handle handler))
    (fits : Fits F K args target.signature.params)
    (params : handler.signature.params = first :: rest)
    (flows : (Kind.ref exception).FlowsInto F.Has first)
    (leads : rest <+: target.signature.params)
    (ret : handler.signature.ret = target.signature.ret) :
    Exec.Agree F K (runCatching run target exception handler args)
      (runCatching run' target exception handler args) (OfKind F target.signature.ret) := by
  have some : ¬ handler.arity = 0 := by simp [Handle.arity, params]
  have count : handler.arity - 1 = rest.length := by simp [Handle.arity, params]
  unfold runCatching
  refine (agree.call targetKnown fits).attempt.bind fun K₁ answer grows knowledge ends => ?_
  cases answer with
  | ok v => exact .pure ends
  | error failure =>
    dsimp only
    split
    · next eq => cases eq
    · next t eq =>
      cases eq
      have thrown : K₁ (.throwable t) := ends t rfl
      rw [if_neg some, if_neg some]
      split
      · next below =>
        obtain ⟨ws, taken, here⟩ := (fits.mono grows).leading leads
        have made : (Value.throwable t).MadeOf F K₁ := Value.madeOf_throwable_iff.2 thrown
        have conforms : (Value.throwable t).conforms first = true :=
          flows _ (Value.over_of_madeOf knowledge made)
            (Value.conforms_ref_iff.2 (.inr ⟨t.refType, rfl, below⟩))
        rw [count, taken, pure_bind, pure_bind, ← ret]
        refine (agree.mono grows).call (grows _ handlerKnown) ?_
        rw [params]
        exact .cons made conforms here
      · exact .refuse ends
    · next eq =>
      cases eq
      exact .refuse ends

/-- A cleanup runs on why the handle failed, on what it returned, and on leading arguments. -/
theorem runCleanup_agree (agree : Runner.Agree F K run run') {ret : Kind} {cleanup : Handle}
    {args : List Value} {kinds rest : List Kind} {first : Kind} {failure : Option Throwable}
    {result : Value} (known : K (.handle cleanup)) (fits : Fits F K args kinds)
    (params : cleanup.signature.params = first :: (if ret.isVoid then [] else [ret]) ++ rest)
    (flows : Kind.throwable.FlowsInto F.Has first) (leads : rest <+: kinds)
    (thrown : ∀ t, failure = some t → K (.throwable t)) (made : OfKind F ret K result) :
    Exec.Agree F K (runCleanup run ret cleanup args failure result)
      (runCleanup run' ret cleanup args failure result) (OfKind F cleanup.signature.ret) := by
  refine .ofKnowledge fun knowledge => ?_
  obtain ⟨ws, taken, here⟩ := fits.leading leads
  have reasonMade : (reason failure).MadeOf F K := by
    cases failure with
    | none => exact .plain rfl
    | some t => exact Value.madeOf_throwable_iff.2 (thrown t rfl)
  have reasonConforms : (reason failure).conforms first = true := by
    refine flows _ (Value.over_of_madeOf knowledge reasonMade) ?_
    cases failure with
    | none => rfl
    | some t => exact Value.throwable_conforms (knowledge.throwable t (thrown t rfl)).2
  have fixed : Fits F K (outcome ret failure result)
      (first :: if ret.isVoid then [] else [ret]) := by
    refine .cons reasonMade reasonConforms ?_
    split
    · exact .nil
    · exact .single made.1 made.2
  have arity : cleanup.arity = (outcome ret failure result).length + rest.length := by
    rw [fixed.conform.length_eq, ← List.length_append, ← params, Handle.arity]
  have enough : ¬ cleanup.arity < (outcome ret failure result).length := by omega
  have passed := fixed.append here
  rw [← params] at passed
  unfold runCleanup
  dsimp only
  rw [if_neg enough, if_neg enough, arity, Nat.add_sub_cancel_left, taken, pure_bind, pure_bind]
  refine (agree.call known passed).attempt.bind fun K₁ answer grows _ ends => ?_
  cases answer with
  | ok v => exact .pure ends
  | error raised =>
    dsimp only
    split
    · split
      · refine (Throwable.suppress_safe _ _).bind fun K₂ _ grows₂ _ _ => ?_
        exact .refuse (Failure.MadeOf.mono grows₂ ends)
      · exact .refuse ends
    · exact .refuse ends

theorem runFinishing_agree (agree : Runner.Agree F K run run') {target cleanup : Handle}
    {args : List Value} {first : Kind} {rest : List Kind} (targetKnown : K (.handle target))
    (cleanupKnown : K (.handle cleanup)) (fits : Fits F K args target.signature.params)
    (params : cleanup.signature.params = first ::
      (if target.signature.ret.isVoid then [] else [target.signature.ret]) ++ rest)
    (flows : Kind.throwable.FlowsInto F.Has first) (leads : rest <+: target.signature.params)
    (ret : cleanup.signature.ret = target.signature.ret) :
    Exec.Agree F K (runFinishing run target cleanup args)
      (runFinishing run' target cleanup args) (OfKind F target.signature.ret) := by
  unfold runFinishing
  refine (agree.call targetKnown fits).attempt.bind fun K₁ answer grows _ ends => ?_
  have fits₁ := fits.mono grows
  have known₁ := grows _ cleanupKnown
  cases answer with
  | ok v =>
    rw [← ret]
    rw [← ret] at params ends
    exact runCleanup_agree (agree.mono grows) known₁ fits₁ params flows leads nofun ends
  | error failure =>
    dsimp only
    split
    · exact .refuse ends
    · refine (asThrowable_safe ends).bind fun K₂ t grows₂ _ thrown => ?_
      have zero : OfKind F target.signature.ret K₂ (.zero target.signature.ret) :=
        ⟨.plain (Value.isPlain_zero _), Value.zero_conforms _⟩
      refine (runCleanup_agree (agree.mono (grows.trans grows₂)) (grows₂ _ known₁)
        (fits₁.mono grows₂) params flows leads
        (fun u eq => by cases eq; exact thrown) zero).bind fun K₃ _ grows₃ _ _ => ?_
      exact .refuse (Failure.MadeOf.mono (grows₂.trans grows₃) ends)

/-- A typed step fills its slot with a value of the slot's kind. -/
theorem perform_agree (agree : Runner.Agree F K run run') {step : Step} {kind : Kind}
    {kinds : List Kind} {frame : List Value} (typed : step.Typed F K kinds kind)
    (fits : Fits F K frame kinds) (limit : Nat) :
    Exec.Agree F K (perform run limit kind step frame) (perform run' limit kind step frame)
      (OfKind F kind) := by
  refine .ofKnowledge fun knowledge => ?_
  cases typed with
  | const made conforms => exact .pure ⟨made, conforms⟩
  | convert found source target =>
    obtain ⟨v, here, made, conforms⟩ := fits.getElem? found
    unfold perform
    dsimp only
    rw [here]
    refine .ofExcept (Ends.intro (fun f failed => ?_) fun w done => ?_)
    · exact Halt.madeOf_of_isStatic (e := .failed f)
        ((Value.convert_ends _ _ _).of_eq_error failed)
    · exact ⟨Value.madeOf_of_convert made done,
        Value.conforms_of_convert source target conforms done⟩
  | leaf made =>
    unfold perform
    refine (gather_madeOf fits.made).bind fun K₁ vs grows _ vsMade => ?_
    refine (agree K₁ (.action _) vs grows ⟨made.mono grows, vsMade⟩).bind fun K₂ v _ _ yields => ?_
    exact checkResult_safe yields.1
  | call target feeds =>
    obtain ⟨vs, gathered, passed⟩ := gather_fits knowledge fits feeds
    unfold perform
    dsimp only
    rw [gathered, pure_bind, pure_bind]
    exact agree.call target passed
  | branch test target fallback feeds leads same =>
    obtain ⟨vs, gathered, passed⟩ := gather_fits knowledge fits feeds
    unfold perform
    dsimp only
    rw [gathered, pure_bind, pure_bind]
    exact runBranch_agree agree test target fallback passed leads same
  | catching target handler feeds given params flows leads ret =>
    obtain ⟨vs, gathered, passed⟩ := gather_fits knowledge fits feeds
    unfold perform
    dsimp only
    rw [gathered, pure_bind, pure_bind]
    exact runCatching_agree agree target handler passed params flows leads ret
  | finishing target cleanup feeds params flows leads ret =>
    obtain ⟨vs, gathered, passed⟩ := gather_fits knowledge fits feeds
    unfold perform
    dsimp only
    rw [gathered, pure_bind, pure_bind]
    exact runFinishing_agree agree target cleanup passed params flows leads ret
  | loop plan feeds =>
    obtain ⟨vs, gathered, passed⟩ := gather_fits knowledge fits feeds
    unfold perform
    dsimp only
    rw [gathered, pure_bind, pure_bind]
    exact LoopPlan.run_agree agree plan passed limit
  | collect given feeds =>
    obtain ⟨vs, gathered, passed⟩ := gather_fits knowledge fits feeds
    unfold perform
    dsimp only
    rw [gathered, pure_bind]
    exact .pure (passed.array given)
  | spread found given =>
    obtain ⟨v, here, made, conforms⟩ := fits.getElem? found
    unfold perform
    dsimp only
    rw [here]
    exact spreadItem_safe knowledge given made conforms
  | dynamic site feeds =>
    obtain ⟨vs, gathered, passed⟩ := gather_fits knowledge fits feeds
    unfold perform
    dsimp only
    rw [gathered]
    refine (CallSite.target_safe site).bind fun K₁ target grows _ known => ?_
    rw [pure_bind, pure_bind, ← known.2]
    exact (agree.mono grows).call known.1 (by rw [known.2]; exact passed.mono grows)

end Step

namespace Program

/-- Typed bindings append values of their kinds to the frame. -/
theorem fill_agree (agree : Runner.Agree F K run run') {bindings : List Binding} {kinds : List Kind}
    {frame : List Value} (typed : BindingsTyped F K kinds bindings) (fits : Fits F K frame kinds)
    (limit : Nat) :
    Exec.Agree F K (fill run limit frame bindings) (fill run' limit frame bindings)
      fun K' vs => Fits F K' vs (kinds ++ bindings.map (·.kind)) := by
  induction bindings generalizing kinds frame K with
  | nil =>
    rw [List.map_nil, List.append_nil]
    exact .pure fits
  | cons b rest ih =>
    unfold fill
    refine (Step.perform_agree agree typed.1 fits limit).bind fun K₁ v grows _ made => ?_
    have next := (fits.mono grows).append (.single made.1 made.2)
    rw [List.map_cons, List.append_cons kinds]
    exact ih (agree.mono grows) (typed.2.mono grows) next

theorem perform_agree (agree : Runner.Agree F K run run') {p : Program} {s : Signature}
    {args : List Value} (typed : p.Typed F K s) (fits : Fits F K args s.params) (limit : Nat) :
    Exec.Agree F K (p.perform run limit args) (p.perform run' limit args) (OfKind F s.ret) := by
  have result := typed.result
  unfold perform
  refine (fill_agree agree typed.bindings fits limit).bind fun K₁ frame _ _ fits => ?_
  cases slot : p.result with
  | none =>
    rw [slot] at result
    dsimp only at result ⊢
    rw [result]
    exact .pure ⟨.plain rfl, rfl⟩
  | some slot' =>
    rw [slot] at result
    obtain ⟨v, here, made, conforms⟩ := fits.getElem? result
    dsimp only
    rw [here]
    exact .pure ⟨made, conforms⟩

end Program

/-- A typed program runs safely on arguments of its signature, shared or not. -/
theorem Blueprint.Typed.perform_agree {b : Blueprint} (typed : b.Typed F K)
    (agree : Runner.Agree F K run run') {args : List Value}
    (fits : Fits F K args b.signature.params) (limit : Nat) :
    Exec.Agree F K (b.program.perform run limit args) (b.program.perform run' limit args)
      (OfKind F b.signature.ret) := by
  refine .ofKnowledge fun knowledge => ?_
  obtain ⟨own, flows, program⟩ := typed.program
  refine (Program.perform_agree agree program
    (fits.flow knowledge flows.params) limit).impOfKnowledge fun K₁ v _ knowledge made =>
      ⟨made.1, ?_⟩
  exact flows.ret v (Value.over_of_madeOf knowledge made.1) made.2

/-! Actions. -/

theorem receiver_safe {owner : ClassDef} {args : List Value} (made : ∀ v ∈ args, v.MadeOf F K) :
    Exec.Safe F K (receiver owner args) fun K' o => K' (.object o) := by
  unfold receiver
  split
  · exact .pure (Value.madeOf_object_iff.1 (made _ List.mem_cons_self))
  · exact throwNew_safe (by simp [ClassDef.builtins])
  · exact throwNew_safe (by simp [ClassDef.builtins])
  · exact .refuseStatic rfl

theorem fieldIndex_safe (o : ObjectRef) (name : String) :
    Exec.Safe F K (fieldIndex o name) fun _ _ => True := by
  unfold fieldIndex
  split
  · exact .pure trivial
  · exact .refuseStatic rfl

theorem Intrinsic.perform_safe {f : Intrinsic} {args : List Value}
    (known : (Action.intrinsic f).MadeOf F K) (made : ∀ v ∈ args, v.MadeOf F K) :
    Exec.Safe F K (f.perform args) fun K' v => v.MadeOf F K' := by
  unfold perform
  cases f with
  | throwArgument =>
    dsimp only
    split
    · refine .refuse fun t thrown => ?_
      cases thrown
      exact Value.madeOf_throwable_iff.1 (made _ List.mem_cons_self)
    · exact throwNew_safe (by simp [ClassDef.builtins])
    · exact throwNew_safe (by simp [ClassDef.builtins])
    · exact .refuseStatic rfl
  | arrayItem =>
    dsimp only
    split
    · next items index _ =>
      have items_made := (Value.madeOf_array_iff.1 (made _ List.mem_cons_self)).2.2
      split
      · next item found =>
        split at found
        · cases found
        · exact .pure (items_made item (List.mem_of_getElem? found))
      · exact throwNew_safe (by simp [ClassDef.builtins])
    · exact throwNew_safe (by simp [ClassDef.builtins])
    · exact .refuseStatic rfl
    · exact .halt trivial
  | arrayLength =>
    dsimp only
    split
    · exact .pure (.plain rfl)
    · exact throwNew_safe (by simp [ClassDef.builtins])
    · exact .refuseStatic rfl
    · exact .halt trivial
  | intLess =>
    dsimp only
    split
    · exact .pure (.plain rfl)
    · exact .pure (.plain rfl)
    · exact .halt trivial
  | intIncrement =>
    dsimp only
    split
    · exact .pure (.plain rfl)
    · exact .halt trivial
  | lambda name implementation instantiated =>
    refine .ofKnowledge fun knowledge => ?_
    have bound : Build.Safe F K (.allocate (Blueprint.insertArguments implementation 0 args))
        fun K' h => K' (.handle h) :=
      Build.allocate_safe ((Blueprint.insertArguments_ends implementation 0 args).imp
        fun _ typed => typed F K knowledge known.1 made)
    refine (Exec.ofBuild_safe bound).bind fun K₁ h grows _ here => ?_
    refine (Exec.ofBuild_safe (Handle.asType_safe here known.2)).bind fun K₂ a _ _ adapter => ?_
    exact .pure (Value.madeOf_handle_iff.2 adapter.1)

/-- What an action answers is made of what is at hand, if the host keeps to it. -/
theorem Action.perform_agree {native native' : HostFunction → List Value → Exec Value}
    {action : Action} {args : List Value}
    (host : ∀ K' f args, K.Grows K' → (∀ v ∈ args, v.MadeOf F K') →
      Exec.Agree F K' (native f args) (native' f args) fun K'' v => v.MadeOf F K'')
    (known : action.MadeOf F K) (made : ∀ v ∈ args, v.MadeOf F K) :
    Exec.Agree F K (action.perform native args) (action.perform native' args)
      fun K' v => v.MadeOf F K' := by
  unfold perform
  cases action with
  | host f => exact host K f args (fun _ h => h) made
  | intrinsic f => exact Intrinsic.perform_safe known made
  | virtual owner name =>
    refine (receiver_safe made).bind fun K₁ o grows _ _ => ?_
    split
    · exact host K₁ _ args grows fun v mem => (made v mem).mono grows
    · exact .refuseStatic rfl
  | getField owner name =>
    refine (receiver_safe made).bind fun K₁ o _ _ _ => ?_
    refine (fieldIndex_safe o name).bind fun K₂ index _ _ _ => ?_
    refine Exec.Agree.get.bind fun K₃ s _ _ sound => ?_
    split
    · next v found => exact .pure (field?_madeOf sound found)
    · exact .refuseStatic rfl
  | setField owner name =>
    have stored : (args.getLast?.getD .null).MadeOf F K := by
      cases last : args.getLast? with
      | none => exact .plain rfl
      | some v => exact made v (List.mem_of_getLast? last)
    dsimp only
    refine (receiver_safe fun v mem => made v (List.dropLast_subset _ mem)).bind
      fun K₁ o grows₁ _ _ => ?_
    refine (fieldIndex_safe o name).bind fun K₂ index grows₂ _ _ => ?_
    refine (ObjectRef.setField_safe (stored.mono (grows₁.trans grows₂))).bind
      fun K₃ done _ _ _ => ?_
    split
    · exact .pure (.plain rfl)
    · exact .refuseStatic rfl
  | construct c =>
    dsimp only
    split
    · exact .refuseStatic rfl
    · refine (newObject_safe known made).bind fun K₁ o _ _ fresh => ?_
      exact .pure (Value.madeOf_object_iff.2 fresh.1)

end TypedHandles
