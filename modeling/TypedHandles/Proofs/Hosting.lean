import TypedHandles.Proofs.Running

/-!
Host code that makes its values of what is at hand runs safely.

`HostTask.Uses` is the contract of such code: it asks for nothing but operations on what is at hand,
and when the answers are what these operations promise, it goes on in the same way and ends with
nothing else. With more at hand the contract still holds, so it may be checked once.
-/
namespace TypedHandles

variable {F : ClassLibrary} {K K' : Known}

/-- The kind of all answers of an operation, where it has one. -/
def Operation.kind? : Operation → Option Kind
  | .construct _ | .lambdaFactory .. | .siteTarget _ | .find .. | .findMember ..
  | .cachedConstant .. | .cachedIdentity .. => some (.ref .handle)
  | .invokeExact target _ | .invoke target _ => some target.signature.ret
  | .invokeAs _ caller _ => some caller.ret
  | .newObject cls _ | .newThrowable cls _ => some (.ofClass cls)
  | .newSite .. | .newUnlinkedSite .. | .resolve .. | .link .. | .unregister .. =>
    some (.ref .callSite)
  | .suppress .. | .setTarget .. | .setTargetPlain .. | .setTargetFenced .. | .registerStatic ..
  | .registerClass .. | .clearCache _ => some .void
  | .setField .. => some .bool
  | .count _ => some (.prim .long)
  | .perform .. | .getField .. | .bootstrap .. | .invokePoint .. => none

/-- What an operation answers. -/
def Operation.Answers (F : ClassLibrary) (question : Operation) (K : Known) (v : Value) : Prop :=
  v.MadeOf F K ∧ ∀ k, question.kind? = some k → v.conforms k = true

mutual

/-- Host code that uses what is at hand and what it is answered, and nothing else. -/
def HostTask.Uses (F : ClassLibrary) (K : Known) : HostTask → Prop
  | .done result => Ends (Failure.MadeOf K) (Value.MadeOf F K) result
  | .ask question resume => question.Uses F K ∧
    ∀ (K' : Known) (answer : Except Failure Value), K.Grows K' → Knowledge F K' →
      Ends (Failure.MadeOf K') (question.Answers F K') answer → (resume answer).Uses F K'

/-- An operation on what is at hand. -/
def Operation.Uses (F : ClassLibrary) (K : Known) : Operation → Prop
  | .construct construction => construction.MadeOf F K
  | .lambdaFactory _ factory implementation instantiated =>
    factory.Valid F.Has ∧ K (.handle implementation) ∧ instantiated.Valid F.Has
  | .perform action args => action.MadeOf F K ∧ ∀ v ∈ args, v.MadeOf F K
  | .invokeExact target args | .invoke target args =>
    K (.handle target) ∧ ∀ v ∈ args, v.MadeOf F K
  | .invokeAs target caller args =>
    K (.handle target) ∧ caller.Valid F.Has ∧ ∀ v ∈ args, v.MadeOf F K
  | .newObject cls fields => F.Has cls ∧ ∀ v ∈ fields, v.MadeOf F K
  | .newThrowable cls _ => F.Has cls ∧ (RefType.cls cls).isThrowable = true
  | .getField object _ => K (.object object)
  | .setField object _ value => K (.object object) ∧ value.MadeOf F K
  | .suppress throwable other => K (.throwable throwable) ∧ K (.throwable other)
  | .newSite _ target => K (.handle target)
  | .newUnlinkedSite _ signature => signature.Valid F.Has
  | .siteTarget site => K (.callSite site)
  | .setTarget site target | .setTargetPlain site target | .setTargetFenced site target =>
    K (.callSite site) ∧ K (.handle target)
  | .registerStatic _ _ _ member => member.signature.Valid F.Has
  | .registerClass _ cls => F.Has cls
  | .find lookup _ | .findMember lookup _ => lookup.MadeOf K
  | .cachedConstant _ kind value => kind.Over F.Has ∧ value.MadeOf F K
  | .cachedIdentity _ kind => kind.Over F.Has
  | .bootstrap lookup point method =>
    lookup.MadeOf K ∧ point.MadeOf F K ∧ (method lookup point).Uses F K
  | .resolve linker point method | .link linker _ point method =>
    linker.lookup.MadeOf K ∧ point.MadeOf F K ∧ (method linker.lookup point).Uses F K
  | .invokePoint linker _ point method args =>
    linker.lookup.MadeOf K ∧ point.MadeOf F K ∧ (method linker.lookup point).Uses F K ∧
      ∀ v ∈ args, v.MadeOf F K
  | .clearCache _ | .unregister _ _ | .count _ => True

end

/-- A host whose functions use what is at hand and the arguments, and nothing else. -/
def Host.Uses (F : ClassLibrary) (K : Known) (host : Host) : Prop :=
  ∀ (K' : Known) (f : HostFunction) (args : List Value), K.Grows K' → Knowledge F K' →
    (∀ v ∈ args, v.MadeOf F K') → (host f args).Uses F K'

/-! More at hand never hurts. -/

theorem forall_madeOf_mono {vs : List Value} (grows : K.Grows K') (h : ∀ v ∈ vs, v.MadeOf F K) :
    ∀ v ∈ vs, v.MadeOf F K' :=
  fun v mem => (h v mem).mono grows

theorem Lookup.MadeOf.mono {l : Lookup} (grows : K.Grows K') (h : l.MadeOf K) : l.MadeOf K' :=
  fun gate found caller request f failed => (h gate found caller request f failed).mono grows

theorem Descriptor.MadeOf.mono {d : Descriptor} (grows : K.Grows K') (h : d.MadeOf F K) :
    d.MadeOf F K' :=
  ⟨h.signature, forall_madeOf_mono grows h.staticArgs⟩

theorem OptionKnown.mono {h : Option Handle} (grows : K.Grows K') (known : OptionKnown K h) :
    OptionKnown K' h :=
  fun g found => grows _ (known g found)

theorem Construction.MadeOf.mono {c : Construction} (grows : K.Grows K') (h : c.MadeOf F K) :
    c.MadeOf F K' := by
  cases c with
  | ofAction => exact ⟨h.1, Action.MadeOf.mono grows h.2⟩
  | identity | zero | arrayItem | arrayLength | empty | throwException => exact h
  | constant => exact ⟨h.1, h.2.mono grows⟩
  | asType | viewAs | permuteArguments | asVariableArity | asSpreader | asCollector
  | dropArguments | dropArgumentsToMatch => exact ⟨grows _ h.1, h.2⟩
  | asFixedArity | dynamicInvoker => exact grows _ h
  | insertArguments => exact ⟨grows _ h.1, forall_madeOf_mono grows h.2⟩
  | filterArguments => exact ⟨grows _ h.1, fun f mem => grows _ (h.2 f mem)⟩
  | filterReturnValue | collectArguments | foldArguments | tryFinally =>
    exact ⟨grows _ h.1, grows _ h.2⟩
  | guardWithTest => exact ⟨grows _ h.1, grows _ h.2.1, grows _ h.2.2⟩
  | catchException => exact ⟨grows _ h.1, h.2.1, grows _ h.2.2⟩
  | loop => exact fun c hc f hf => grows _ (h c hc f hf)
  | whileLoop | doWhileLoop => exact ⟨h.1.mono grows, grows _ h.2.1, grows _ h.2.2⟩
  | countedLoop => exact ⟨grows _ h.1, h.2.1.mono grows, grows _ h.2.2⟩
  | countedLoopRange =>
    exact ⟨grows _ h.1, grows _ h.2.1, h.2.2.1.mono grows, grows _ h.2.2.2⟩
  | iteratedLoop => exact ⟨h.1, h.2.1.mono grows, grows _ h.2.2⟩

mutual

theorem HostTask.Uses.mono {task : HostTask} (grows : K.Grows K') (h : task.Uses F K) :
    task.Uses F K' := by
  match task with
  | .done (.ok v) => exact Value.MadeOf.mono grows h
  | .done (.error f) => exact Failure.MadeOf.mono grows h
  | .ask question resume =>
    exact ⟨Operation.Uses.mono grows h.1,
      fun K₂ answer grows₂ => h.2 K₂ answer (grows.trans grows₂)⟩
termination_by structural task

theorem Operation.Uses.mono {question : Operation} (grows : K.Grows K') (h : question.Uses F K) :
    question.Uses F K' := by
  match question with
  | .construct _ => exact Construction.MadeOf.mono grows h
  | .lambdaFactory .. => exact ⟨h.1, grows _ h.2.1, h.2.2⟩
  | .perform .. => exact ⟨Action.MadeOf.mono grows h.1, forall_madeOf_mono grows h.2⟩
  | .invokeExact .. => exact ⟨grows _ h.1, forall_madeOf_mono grows h.2⟩
  | .invoke .. => exact ⟨grows _ h.1, forall_madeOf_mono grows h.2⟩
  | .invokeAs .. => exact ⟨grows _ h.1, h.2.1, forall_madeOf_mono grows h.2.2⟩
  | .newObject .. => exact ⟨h.1, forall_madeOf_mono grows h.2⟩
  | .newThrowable .. => exact h
  | .getField .. => exact grows _ h
  | .setField .. => exact ⟨grows _ h.1, h.2.mono grows⟩
  | .suppress .. => exact ⟨grows _ h.1, grows _ h.2⟩
  | .newSite .. => exact grows _ h
  | .newUnlinkedSite .. => exact h
  | .siteTarget .. => exact grows _ h
  | .setTarget .. => exact ⟨grows _ h.1, grows _ h.2⟩
  | .setTargetPlain .. => exact ⟨grows _ h.1, grows _ h.2⟩
  | .setTargetFenced .. => exact ⟨grows _ h.1, grows _ h.2⟩
  | .registerStatic .. => exact h
  | .registerClass .. => exact h
  | .find .. => exact Lookup.MadeOf.mono grows h
  | .findMember .. => exact Lookup.MadeOf.mono grows h
  | .cachedConstant .. => exact ⟨h.1, h.2.mono grows⟩
  | .cachedIdentity .. => exact h
  | .clearCache _ => trivial
  | .bootstrap lookup point method =>
    exact ⟨h.1.mono grows, h.2.1.mono grows, HostTask.Uses.mono grows h.2.2⟩
  | .resolve linker point method =>
    exact ⟨h.1.mono grows, h.2.1.mono grows, HostTask.Uses.mono grows h.2.2⟩
  | .link linker _ point method =>
    exact ⟨h.1.mono grows, h.2.1.mono grows, HostTask.Uses.mono grows h.2.2⟩
  | .unregister .. => trivial
  | .invokePoint linker _ point method args =>
    exact ⟨h.1.mono grows, h.2.1.mono grows, HostTask.Uses.mono grows h.2.2.1,
      forall_madeOf_mono grows h.2.2.2⟩
  | .count _ => trivial
termination_by structural question

end

/-! Invoking handles from outside. -/

theorem Value.kind_over {v : Value} (knowledge : Knowledge F K) (made : v.MadeOf F K) :
    v.kind.Over F.Has := by
  have given := Value.over_of_madeOf knowledge made
  cases v <;> simp only [kind, prim?, refType?, Kind.over_void, Kind.over_prim, Kind.over_ref]
  all_goals first | exact given _ rfl | simp [RefType.Over]

theorem Signature.ofValues_ends (ret : Kind) (args : List Value) :
    Ends (·.isStatic = true)
      (fun s => s.ret = ret ∧ ∀ (F : ClassLibrary) (K : Known), Knowledge F K → ret.Over F.Has →
        (∀ v ∈ args, v.MadeOf F K) → s.Valid F.Has)
      (Signature.ofValues ret args) := by
  refine (Signature.make_ends _ _).imp fun s => ?_
  rintro ⟨rfl, wf⟩
  refine ⟨rfl, fun F K knowledge given made => ⟨wf, given, fun k hk => ?_⟩⟩
  obtain ⟨v, mem, rfl⟩ := List.mem_map.1 hk
  exact Value.kind_over knowledge (made v mem)

namespace Handle

/-- Arguments that are let through conform to the parameters. -/
theorem checkArguments_ends (h : Handle) (args : List Value) :
    Ends (·.isStatic = true) (fun _ => Conform args h.signature.params)
      (h.checkArguments args) := by
  unfold checkArguments
  split
  · rfl
  · next count =>
    have length : args.length = h.signature.params.length := by simpa [arity] using count
    split
    · next absent =>
      refine List.forall₂_iff_zip.2 ⟨length, fun {v k} mem => ?_⟩
      simpa using List.find?_eq_none.1 absent (v, k) mem
    · exact (Signature.ofValues_ends _ _).bind fun _ _ => rfl
    · rfl

/-- Conforming arguments are let through. -/
theorem checkArguments_of_conform {h : Handle} {args : List Value}
    (conform : Conform args h.signature.params) : h.checkArguments args = .ok () := by
  have length : args.length = h.arity := conform.length_eq
  unfold checkArguments
  rw [if_neg (by simpa using length), List.find?_eq_none.2]
  rintro ⟨v, k⟩ mem
  simpa using (List.forall₂_iff_zip.1 conform).2 mem

variable {run run' : Runner}

/-- An exact invocation on values of the parameters is a call. -/
theorem invokeExact_of_conform {h : Handle} {args : List Value} (run : Runner)
    (conform : Conform args h.signature.params) : h.invokeExact run args = run.call h args := by
  unfold invokeExact
  rw [checkArguments_of_conform conform]
  rfl

/-- Nothing is invoked on other arguments. -/
theorem invokeExact_of_not_conform {h : Handle} {args : List Value}
    (other : ¬ Conform args h.signature.params) (run : Runner) :
    ∃ failure, h.checkArguments args = .error failure ∧
      ∀ s, h.invokeExact run args s = (.error (.failed failure), s) := by
  unfold invokeExact
  cases checked : h.checkArguments args with
  | ok u => exact absurd ((h.checkArguments_ends args).of_eq_ok checked) other
  | error failure => exact ⟨failure, rfl, fun _ => rfl⟩

theorem invokeExact_agree (agree : Runner.Agree F K run run') {h : Handle} {args : List Value}
    (known : K (.handle h)) (made : ∀ v ∈ args, v.MadeOf F K) :
    Exec.Agree F K (h.invokeExact run args) (h.invokeExact run' args) (OfKind F h.signature.ret) :=
  .bindExcept (h.checkArguments_ends args) fun _ conform => agree.call known ⟨conform, made⟩

theorem invokeAs_agree (agree : Runner.Agree F K run run') {h : Handle} {caller : Signature}
    {args : List Value} (known : K (.handle h)) (valid : caller.Valid F.Has)
    (made : ∀ v ∈ args, v.MadeOf F K) :
    Exec.Agree F K (h.invokeAs run caller args) (h.invokeAs run' caller args)
      (OfKind F caller.ret) := by
  refine (Exec.ofBuild_safe (adaptedTo_safe known valid)).bind fun K₁ a grows _ adapted => ?_
  rw [← adapted.2]
  exact invokeExact_agree (agree.mono grows) adapted.1 (forall_madeOf_mono grows made)

theorem invoke_agree (agree : Runner.Agree F K run run') {h : Handle} {args : List Value}
    (known : K (.handle h)) (made : ∀ v ∈ args, v.MadeOf F K) :
    Exec.Agree F K (h.invoke run args) (h.invoke run' args) (OfKind F h.signature.ret) := by
  refine .ofKnowledge fun knowledge => ?_
  unfold invoke
  dsimp only
  split
  · exact .refuseStatic rfl
  · refine .bindExcept (Signature.ofValues_ends _ _) fun caller spec => ?_
    have given := (knowledge.handle h known).valid.ret_over
    rw [← spec.1]
    exact invokeAs_agree agree known (spec.2 F K knowledge given made) made

end Handle

/-! Host code. -/

section

variable {run run' : Runner}

/-- A handle, as an answer. -/
theorem Operation.answers_handle {question : Operation} {h : Handle}
    (kind : question.kind? = some (.ref .handle)) (known : K (.handle h)) :
    question.Answers F K (.handle h) := by
  refine ⟨Value.madeOf_handle_iff.2 known, fun k eq => ?_⟩
  cases kind.symm.trans eq
  rfl

/-- A site, as an answer. -/
theorem Operation.answers_callSite {question : Operation} {site : CallSite}
    (kind : question.kind? = some (.ref .callSite)) (known : K (.callSite site)) :
    question.Answers F K (.callSite site) := by
  refine ⟨Value.madeOf_callSite_iff.2 known, fun k eq => ?_⟩
  cases kind.symm.trans eq
  rfl

/-- A plain value of the right kind, as an answer. -/
theorem Operation.answers_plain {question : Operation} {v : Value} {kind : Kind}
    (same : question.kind? = some kind) (plain : v.isPlain = true)
    (conforms : v.conforms kind = true) : question.Answers F K v := by
  refine ⟨.plain plain, fun k eq => ?_⟩
  cases same.symm.trans eq
  exact conforms

theorem announce_agree {lookup : Lookup} {point : Descriptor} {x y : Exec Value}
    {Q : Known → Value → Prop} (h : ∀ K', K.Grows K' → Exec.Agree F K' x y Q) :
    Exec.Agree F K (announce lookup point x) (announce lookup point y) Q :=
  (record_safe _).bind fun K₁ _ grows _ _ => h K₁ grows

mutual

/-- Host code that keeps to its contract ends with a value or a throwable at hand. -/
theorem HostTask.run_agree {K : Known} {task : HostTask} (agree : Runner.Agree F K run run')
    (uses : task.Uses F K) :
    Exec.Agree F K (task.run run) (task.run run') fun K' v => v.MadeOf F K' := by
  match task with
  | .done result =>
    refine (record_safe _).bind fun K₁ _ grows _ _ => .ofExcept ?_
    cases result with
    | ok v => exact Value.MadeOf.mono grows uses
    | error f => exact Failure.MadeOf.mono grows uses
  | .ask question resume =>
    refine (Operation.answer_agree agree uses.1).attempt.bind
      fun K₁ answer grows knowledge ends => ?_
    exact HostTask.run_agree (agree.mono grows) (uses.2 K₁ answer grows knowledge ends)
termination_by structural task

/-- An operation on what is at hand keeps the state sound and answers what it promises. -/
theorem Operation.answer_agree {K : Known} {question : Operation}
    (agree : Runner.Agree F K run run') (uses : question.Uses F K) :
    Exec.Agree F K (question.answer run) (question.answer run') (question.Answers F) := by
  match question with
  | .construct construction =>
    exact (Exec.ofBuild_safe (Construction.build_safe uses)).bind fun _ _ _ _ known =>
      .pure (Operation.answers_handle rfl known)
  | .lambdaFactory name factory implementation instantiated =>
    have typed : (Blueprint.ofAction factory
        (.intrinsic (.lambda name implementation instantiated))).Typed F K :=
      Blueprint.ofAction_typed uses.1 uses.2
    exact (Exec.ofBuild_safe (Blueprint.make_safe typed)).bind fun _ _ _ _ made =>
      .pure (Operation.answers_handle rfl made.1)
  | .perform action args =>
    exact (agree K (.action action) args (.refl K) uses).imp fun _ _ _ yields => ⟨yields.1, nofun⟩
  | .invokeExact target args =>
    exact (Handle.invokeExact_agree agree uses.1 uses.2).imp fun _ _ _ made =>
      ⟨made.1, fun k eq => Option.some.inj eq ▸ made.2⟩
  | .invoke target args =>
    exact (Handle.invoke_agree agree uses.1 uses.2).imp fun _ _ _ made =>
      ⟨made.1, fun k eq => Option.some.inj eq ▸ made.2⟩
  | .invokeAs target caller args =>
    exact (Handle.invokeAs_agree agree uses.1 uses.2.1 uses.2.2).imp fun _ _ _ made =>
      ⟨made.1, fun k eq => Option.some.inj eq ▸ made.2⟩
  | .newObject cls fields =>
    refine (newObject_safe uses.1 uses.2).bind fun K₁ o _ _ fresh =>
      .pure ⟨Value.madeOf_object_iff.2 fresh.1, fun k eq => ?_⟩
    cases eq
    exact Value.conforms_ref_iff.2 (.inr ⟨_, rfl, fresh.2 ▸ RefType.isSubtypeOf_refl _⟩)
  | .newThrowable cls message =>
    refine (newThrowable_safe uses.1 uses.2).bind fun K₁ t _ _ fresh =>
      .pure ⟨Value.madeOf_throwable_iff.2 fresh.1, fun k eq => ?_⟩
    cases eq
    exact Value.conforms_ref_iff.2 (.inr ⟨_, rfl, fresh.2 ▸ RefType.isSubtypeOf_refl _⟩)
  | .getField object index =>
    refine Exec.Agree.get.bind fun K₁ s _ _ sound => .pure ⟨?_, nofun⟩
    cases found : s.field? object index with
    | none => exact .plain rfl
    | some v => exact field?_madeOf sound found
  | .setField object index value =>
    exact (ObjectRef.setField_safe uses.2).bind fun _ _ _ _ _ =>
      .pure (Operation.answers_plain rfl rfl rfl)
  | .suppress throwable other =>
    exact (Throwable.suppress_safe throwable other).bind fun _ _ _ _ _ =>
      .pure (Operation.answers_plain rfl rfl rfl)
  | .newSite kind target =>
    refine .ofKnowledge fun knowledge => ?_
    refine (newSite_safe (knowledge.handle target uses).valid fun h eq => ?_).bind
      fun _ _ _ _ made => .pure (Operation.answers_callSite rfl made.1)
    cases eq
    exact ⟨uses, rfl⟩
  | .newUnlinkedSite kind signature =>
    refine (newSite_safe uses fun h eq => ?_).bind fun _ _ _ _ made =>
      .pure (Operation.answers_callSite rfl made.1)
    cases eq
  | .siteTarget site =>
    exact (CallSite.target_safe uses).bind fun _ _ _ _ known =>
      .pure (Operation.answers_handle rfl known.1)
  | .setTarget site target =>
    exact (CallSite.setTarget_safe uses.1 uses.2).bind fun _ _ _ _ _ =>
      .pure (Operation.answers_plain rfl rfl rfl)
  | .setTargetPlain site target =>
    exact (CallSite.setTargetPlain_safe uses.1 uses.2).bind fun _ _ _ _ _ =>
      .pure (Operation.answers_plain rfl rfl rfl)
  | .setTargetFenced site target =>
    exact (CallSite.setTargetFenced_safe uses.1 uses.2).bind fun _ _ _ _ _ =>
      .pure (Operation.answers_plain rfl rfl rfl)
  | .registerStatic registry owner name member =>
    exact (registerStatic_safe uses).bind fun _ _ _ _ _ =>
      .pure (Operation.answers_plain rfl rfl rfl)
  | .registerClass registry cls =>
    exact (registerClass_safe uses).bind fun _ _ _ _ _ =>
      .pure (Operation.answers_plain rfl rfl rfl)
  | .find lookup request =>
    exact (Lookup.find_safe uses request).bind fun _ _ _ _ known =>
      .pure (Operation.answers_handle rfl known)
  | .findMember lookup query =>
    exact (Lookup.findMember_safe uses query).bind fun _ _ _ _ known =>
      .pure (Operation.answers_handle rfl known)
  | .cachedConstant cache kind value =>
    exact (cachedConstant_safe uses.1 uses.2).bind fun _ _ _ _ known =>
      .pure (Operation.answers_handle rfl known)
  | .cachedIdentity cache kind =>
    exact (cachedIdentity_safe uses).bind fun _ _ _ _ known =>
      .pure (Operation.answers_handle rfl known)
  | .clearCache cache =>
    exact (clearCache_safe cache).bind fun _ _ _ _ _ =>
      .pure (Operation.answers_plain rfl rfl rfl)
  | .bootstrap lookup point method =>
    refine (announce_agree fun K' grows => ?_).imp fun _ _ _ made => ⟨made, nofun⟩
    exact HostTask.run_agree (agree.mono grows) (uses.2.2.mono grows)
  | .resolve linker point method =>
    have linked : ∀ K', K.Grows K' → Exec.Agree F K'
        ((method linker.lookup point).run run) ((method linker.lookup point).run run')
        fun K'' v => v.MadeOf F K'' :=
      fun K' grows => HostTask.run_agree (agree.mono grows) (uses.2.2.mono grows)
    exact (Linker.resolve_agree (announce_agree linked)).bind fun _ _ _ _ known =>
      .pure (Operation.answers_callSite rfl known)
  | .link linker id point method =>
    have linked : ∀ K', K.Grows K' → Exec.Agree F K'
        ((method linker.lookup point).run run) ((method linker.lookup point).run run')
        fun K'' v => v.MadeOf F K'' :=
      fun K' grows => HostTask.run_agree (agree.mono grows) (uses.2.2.mono grows)
    refine (Linker.link_agree fun K' grows => announce_agree fun K'' grows' => ?_).bind
      fun _ _ _ _ known => .pure (Operation.answers_callSite rfl known)
    exact linked K'' (grows.trans grows')
  | .unregister linker id =>
    refine (Linker.unregister_safe linker id).bind fun _ found _ _ known => .pure ?_
    cases found with
    | none => exact Operation.answers_plain rfl rfl rfl
    | some site => exact Operation.answers_callSite rfl (known site rfl)
  | .invokePoint linker id point method args =>
    have linked : ∀ K', K.Grows K' → Exec.Agree F K'
        ((method linker.lookup point).run run) ((method linker.lookup point).run run')
        fun K'' v => v.MadeOf F K'' :=
      fun K' grows => HostTask.run_agree (agree.mono grows) (uses.2.2.1.mono grows)
    refine (Linker.link_agree fun K' grows => announce_agree fun K'' grows' =>
      linked K'' (grows.trans grows')).bind fun K₁ site grows₁ _ known => ?_
    refine (CallSite.target_safe known).bind fun K₂ target grows₂ _ known => ?_
    refine (Handle.invokeExact_agree (agree.mono (grows₁.trans grows₂)) known.1
      (forall_madeOf_mono (grows₁.trans grows₂) uses.2.2.2)).imp fun _ _ _ made => ?_
    exact ⟨made.1, nofun⟩
  | .count counter =>
    refine Exec.Agree.get.bind fun _ _ _ _ _ => ?_
    refine Exec.Agree.bind (P := fun _ _ => True) (.ofOption fun _ _ => trivial)
      fun _ _ _ _ _ => ?_
    refine Exec.Agree.bind (P := fun _ _ => True) (Exec.Agree.change fun _ sound => { sound with })
      fun _ _ _ _ _ => ?_
    exact .pure (Operation.answers_plain rfl rfl rfl)
termination_by structural question

end

end

/-! The machine. -/

theorem callHost_agree {run run' : Runner} {host : Host} (agree : Runner.Agree F K run run')
    (uses : host.Uses F K) {f : HostFunction} {args : List Value}
    (made : ∀ v ∈ args, v.MadeOf F K) :
    Exec.Agree F K (callHost host run f args) (callHost host run' f args)
      fun K' v => v.MadeOf F K' := by
  unfold callHost
  refine (record_safe _).bind fun K₁ _ grows knowledge _ => ?_
  exact HostTask.run_agree (agree.mono grows)
    (uses K₁ f args grows knowledge (forall_madeOf_mono grows made))

/-- Two watches that make no difference to code that takes its arguments make none to a run. -/
theorem runWith_agree {watch watch' : Runner → Runner} {host : Host}
    (watches : ∀ run run', Runner.Agree F K run run' → Runner.Agree F K (watch run) (watch' run'))
    (uses : host.Uses F K) (n : Nat) :
    Runner.Agree F K (runWith watch host n) (runWith watch' host n) := by
  induction n with
  | zero => exact fun _ _ _ _ _ => .halt trivial
  | succ n ih =>
    refine watches _ _ fun K' code args grows takes => ?_
    have agree := ih.mono grows
    cases code with
    | program s p => exact takes.1.perform_agree agree takes.2 n
    | action a =>
      refine (Action.perform_agree (fun K₂ f args grows₂ made => ?_) takes.1 takes.2).imp
        fun _ _ _ made => ⟨made, trivial⟩
      exact callHost_agree (agree.mono grows₂)
        (fun K₃ f args grows₃ => uses K₃ f args ((grows.trans grows₂).trans grows₃)) made

theorem runCode_agree {host : Host} (uses : host.Uses F K) (n : Nat) :
    Runner.Agree F K (runCode host n) (runCode host n) :=
  runWith_agree (fun _ _ agree => agree) uses n

end TypedHandles
