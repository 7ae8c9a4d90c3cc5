import TypedHandles.Proofs.Refusal
import TypedHandles.Proofs.Wiring
import TypedHandles.Handle.Construction

/-!
Every blueprint is typed: whatever an adapter accepts, its program passes each handle what that
handle takes, and ends in what the new signature promises.

Each lemma also says that a refusal is static, whatever the adapter was given.
-/
namespace TypedHandles

variable {F : ClassLibrary} {K : Known}

namespace Blueprint

/-- A blueprint whose program is typed over the blueprint's own signature. -/
theorem Typed.of_program {b : Blueprint} (valid : b.signature.Valid F.Has)
    (typed : b.program.Typed F K b.signature) : b.Typed F K :=
  ⟨valid, b.signature, .refl b.signature, typed⟩

/-! Handles made from kinds, values and actions. -/

theorem ofAction_typed {s : Signature} {action : Action} (valid : s.Valid F.Has)
    (made : action.MadeOf F K) : (ofAction s action).Typed F K :=
  .of_program valid (single_typed (.leaf action) (.leaf made))

theorem empty_typed {s : Signature} (valid : s.Valid F.Has) : (empty s).Typed F K :=
  .of_program valid (single_typed (fun _ => .const (.zero s.ret))
    (.const (.plain (Value.isPlain_zero s.ret)) (Value.zero_conforms s.ret)))

theorem identity_ends (kind : Kind) :
    Ends (·.isStatic = true)
      (fun b => b.signature = ⟨kind, [kind]⟩ ∧
        ∀ (F : ClassLibrary) (K : Known), kind.Over F.Has → b.Typed F K)
      (identity kind) := by
  unfold identity
  refine (Signature.make_ends kind [kind]).bind fun s => ?_
  rintro ⟨rfl, wf⟩
  refine ⟨rfl, fun F K given => .of_program ⟨wf, given, by simpa using given⟩ ⟨trivial, ?_⟩⟩
  apply result_typed
  rfl

theorem constant_ends (kind : Kind) (value : Value) :
    Ends (·.isStatic = true)
      (fun b => b.signature = ⟨kind, []⟩ ∧
        ∀ (F : ClassLibrary) (K : Known), kind.Over F.Has → value.MadeOf F K → b.Typed F K)
      (constant kind value) := by
  unfold constant
  refine (Value.coerce_ends value kind).bind fun w fitted => ?_
  refine (Signature.make_ends kind []).bind fun s => ?_
  rintro ⟨rfl, wf⟩
  refine ⟨rfl, fun F K given made => .of_program ⟨wf, given, by simp⟩ ?_⟩
  exact single_typed (fun _ => .const w)
    (.const (Value.madeOf_of_coerce made fitted) (Value.conforms_of_coerce fitted))

theorem zero_ends (kind : Kind) :
    Ends (·.isStatic = true)
      (fun b => ∀ (F : ClassLibrary) (K : Known), kind.Over F.Has → b.Typed F K) (zero kind) := by
  unfold zero
  refine (Signature.make_ends kind []).bind fun s => ?_
  rintro ⟨rfl, wf⟩
  exact fun F K given => empty_typed ⟨wf, given, by simp⟩

theorem throwException_ends (ret : Kind) (exception : RefType) :
    Ends (·.isStatic = true)
      (fun b => ∀ (F : ClassLibrary) (K : Known), ret.Over F.Has → exception.Over F.Has →
        b.Typed F K)
      (throwException ret exception) := by
  unfold throwException
  refine Ends.checkFailure rfl fun _ => ?_
  refine (Signature.make_ends ret [.ref exception]).bind fun s => ?_
  rintro ⟨rfl, wf⟩
  exact fun F K hret hexception => ofAction_typed ⟨wf, hret, by simpa using hexception⟩ trivial

theorem arrayItem_ends (array : Kind) :
    Ends (·.isStatic = true)
      (fun b => ∃ element, array = .arrayOf element ∧ b.signature = ⟨element, [array, .int]⟩ ∧
        ∀ (F : ClassLibrary) (K : Known), array.Over F.Has → b.Typed F K)
      (arrayItem array) := by
  unfold arrayItem
  refine (elementOf_ends array).bind fun element helement => ?_
  refine (Signature.make_ends element [array, .int]).bind fun s => ?_
  rintro ⟨rfl, wf⟩
  refine ⟨element, helement, rfl, fun F K given => ofAction_typed ⟨wf, ?_, ?_⟩ trivial⟩
  · subst helement
    simpa [Kind.arrayOf] using given
  · simpa using given

theorem arrayLength_ends (array : Kind) :
    Ends (·.isStatic = true)
      (fun b => b.signature = ⟨.int, [array]⟩ ∧
        ∀ (F : ClassLibrary) (K : Known), array.Over F.Has → b.Typed F K)
      (arrayLength array) := by
  unfold arrayLength
  refine (elementOf_ends array).bind fun element _ => ?_
  refine (Signature.make_ends .int [array]).bind fun s => ?_
  rintro ⟨rfl, wf⟩
  exact ⟨rfl, fun F K given => ofAction_typed ⟨wf, by simp, by simpa using given⟩ trivial⟩

theorem intLess_ends :
    Ends (·.isStatic = true)
      (fun b => b.signature = ⟨.bool, [.int, .int]⟩ ∧
        ∀ (F : ClassLibrary) (K : Known), b.Typed F K) intLess := by
  unfold intLess
  refine (Signature.make_ends .bool [.int, .int]).bind fun s => ?_
  rintro ⟨rfl, wf⟩
  exact ⟨rfl, fun F K => ofAction_typed ⟨wf, by simp, by simp⟩ trivial⟩

theorem intIncrement_ends :
    Ends (·.isStatic = true)
      (fun b => b.signature = ⟨.int, [.int]⟩ ∧ ∀ (F : ClassLibrary) (K : Known), b.Typed F K)
      intIncrement := by
  unfold intIncrement
  refine (Signature.make_ends .int [.int]).bind fun s => ?_
  rintro ⟨rfl, wf⟩
  exact ⟨rfl, fun F K => ofAction_typed ⟨wf, by simp, by simp⟩ trivial⟩

/-! Handles at another signature. -/

theorem sharing_typed {target : Handle} {s : Signature} (typed : target.Typed F K)
    (valid : s.Valid F.Has) (view : target.signature.isViewableAs s true = true) :
    (sharing target s).Typed F K := by
  obtain ⟨own, flows, program⟩ := typed.blueprint.program
  exact ⟨valid, own,
    flows.trans (Signature.flowsInto_of_isViewableAs typed.valid valid view), program⟩

theorem converting_typed {target : Handle} {s : Signature} (known : K (.handle target))
    (typed : target.Typed F K) (valid : s.Valid F.Has)
    (lengths : target.signature.params.length = s.params.length) :
    (converting target s).Typed F K := by
  have own := typed.valid
  have chains : ChainsTyped F K s.params
      ((target.signature.params.zip s.params).mapIdx fun slot kinds =>
        (slot, Program.conversion kinds.2 kinds.1)) target.signature.params := by
    refine List.forall₂_of_length_eq_of_get (by simp [lengths]) fun i h₁ h₂ => ?_
    have inside : i < s.params.length := by omega
    refine ⟨s.params[i], by simp [inside], ?_⟩
    simpa using conversion_typed (valid.params_over _ (List.getElem_mem inside))
      (own.params_over _ (List.getElem_mem h₂))
  obtain ⟨before, feeds⟩ := layout_typed chains
  exact .of_program valid
    (chained_typed known before feeds (conversion_typed own.ret_over valid.ret_over))

/-! Trailing arguments and arrays. -/

theorem spreader_ends (target : Handle) (array : Kind) (count : Nat) :
    Ends Halt.IsStatic
      (fun b => ∀ (F : ClassLibrary) (K : Known), Knowledge F K → K (.handle target) →
        array.Over F.Has → b.Typed F K)
      (spreader target array count) := by
  unfold spreader
  refine (Ends.ofExcept (elementOf_ends array)).bind fun element harray => ?_
  subst harray
  refine Ends.check rfl fun enough => ?_
  refine (Ends.ofExcept (Signature.replaceParams_ends _ _ _ _)).bind fun s => ?_
  rintro ⟨-, -, eq, wf⟩
  dsimp only
  split
  · rfl
  · intro F K knowledge known given
    have typed := knowledge.handle target known
    have valid : s.Valid F.Has := typed.valid.replaced (by simpa using given) eq wf
    have helement : element.Over F.Has := by simpa [Kind.arrayOf] using given
    have own := typed.valid.params_over
    simp only [Signature.paramsFrom, Signature.arity, List.drop_length, List.append_nil] at eq ⊢
    generalize hstart : target.signature.params.length - count = start at eq ⊢
    have params : s.params = target.signature.params.take start ++ [.arrayOf element] := by rw [eq]
    have lead : (target.signature.params.take start).length = start := by
      rw [List.length_take]
      omega
    have length : s.params.length = start + 1 := by rw [params, List.length_append, lead]; rfl
    have found : s.params[start]? = some (.arrayOf element) := by
      have last := List.getElem?_concat_length (l := target.signature.params.take start)
        (a := Kind.arrayOf element)
      rwa [lead, ← params] at last
    have chains : ChainsTyped F K s.params
        ((target.signature.params.drop start).mapIdx fun index param =>
          (start, (fun slot => ⟨element, .spread slot index count⟩) ::
            Program.conversion element param)) (target.signature.params.drop start) := by
      refine List.forall₂_of_length_eq_of_get (by simp) fun i h₁ h₂ => ?_
      refine ⟨.arrayOf element, by simpa using found, ?_⟩
      simp only [List.get_eq_getElem, List.getElem_mapIdx]
      refine .cons (fun frame slot inside => ⟨.spread inside helement, rfl⟩) ?_
      exact conversion_typed helement (own _ (List.mem_of_mem_drop (List.getElem_mem h₂)))
    obtain ⟨before, feeds⟩ := layout_typed chains
    rw [length] at before feeds
    refine .of_program valid (calling_typed length.symm known (by rw [eq]) before ?_)
    have leading : Feeds F.Has s.params (Program.slots 0 start)
        (target.signature.params.take start) := by
      rw [params]
      exact Feeds.slots_front _ _ lead.symm
    have all := leading.weaken.append feeds
    rwa [List.take_append_drop] at all

theorem collector_ends (target : Handle) (array : Kind) (count : Nat) :
    Ends Halt.IsStatic
      (fun b => ∀ (F : ClassLibrary) (K : Known), Knowledge F K → K (.handle target) →
        array.Over F.Has → b.Typed F K)
      (collector target array count) := by
  unfold collector
  refine (Ends.ofExcept (elementOf_ends array)).bind fun element harray => ?_
  subst harray
  split
  · rfl
  · next trailing last =>
    obtain ⟨front, params⟩ := List.getLast?_eq_some_iff.1 last
    dsimp only
    split
    · trivial
    · refine Ends.check rfl fun _ => ?_
      refine (Ends.ofExcept (Signature.replaceParams_ends _ _ _ _)).bind fun s => ?_
      rintro ⟨-, -, eq, wf⟩
      refine Ends.check rfl fun viewable => ?_
      intro F K knowledge known given
      have typed := knowledge.handle target known
      have helement : element.Over F.Has := by simpa [Kind.arrayOf] using given
      have valid : s.Valid F.Has := typed.valid.replaced
        (fun k hk => by rwa [(List.mem_replicate.1 hk).2]) eq wf
      have htrailing : trailing.Over F.Has :=
        typed.valid.params_over _ (by simp [params])
      have flows : (Kind.arrayOf element).FlowsInto F.Has trailing :=
        Kind.flowsInto_of_isViewableAs given htrailing (by simpa using viewable)
      have sparams : s.params = front ++ List.replicate count element := by
        rw [eq]
        simp [Signature.arity, params]
      have arity : target.signature.arity - 1 = front.length := by simp [Signature.arity, params]
      rw [arity]
      have length : front.length + count = s.params.length := by simp [sparams]
      refine .of_program valid (calling_typed length known (by rw [eq]) ⟨?_, trivial⟩ ?_)
      · refine .collect helement ?_
        have slots : (Program.slots front.length (front.length + count)).length = count := by
          simp [Program.slots]
        rw [slots, sparams, ← List.append_nil (front ++ _)]
        exact Feeds.slots_middle _ _ _ rfl (by simp)
      · rw [params]
        have gathered : Feeds F.Has (s.params ++ [Kind.arrayOf element]) [front.length + count]
            [trailing] := by
          rw [length]
          exact .cons ⟨_, List.getElem?_concat_length, flows⟩ .nil
        refine Feeds.append ?_ gathered
        rw [sparams, List.append_assoc]
        exact Feeds.slots_front _ _ rfl

/-! Adapters of arguments. -/

theorem insertArguments_ends (target : Handle) (pos : Nat) (values : List Value) :
    Ends Halt.IsStatic
      (fun b => ∀ (F : ClassLibrary) (K : Known), Knowledge F K → K (.handle target) →
        (∀ v ∈ values, v.MadeOf F K) → b.Typed F K)
      (insertArguments target pos values) := by
  unfold insertArguments
  refine (requirePositions_ends _ _ _).bind fun _ inside => ?_
  refine Ends.bind (Ends.ofOption fun kinds h => slice?_split h) fun kinds slice => ?_
  obtain ⟨front, back, hfront, hback, split, lead, width⟩ := slice
  refine (Ends.ofExcept (mapM_ends fun a _ =>
    (Value.coerce_ends a.1 a.2).imp fun _ _ => trivial)).bind fun bound fitted => ?_
  refine (Ends.ofExcept (Signature.replaceParams_ends _ _ _ _)).bind fun s => ?_
  rintro ⟨-, -, eq, wf⟩ F K knowledge known made
  have typed := knowledge.handle target known
  have valid : s.Valid F.Has := typed.valid.replaced (by simp) eq wf
  have count : bound.length = values.length := by
    rw [← fitted.length_eq, List.length_zip, width, Nat.min_self]
  have constants : List.Forall₂ (fun k v => v.conforms k = true ∧ v.MadeOf F K) kinds bound := by
    refine List.forall₂_of_length_eq_of_get (by omega) fun i h₁ h₂ => ?_
    have here := fitted.get (by rw [fitted.length_eq]; exact h₂) h₂
    simp only [List.get_eq_getElem, List.getElem_zip] at here
    exact ⟨Value.conforms_of_coerce here,
      Value.madeOf_of_coerce (made _ (List.getElem_mem (by omega))) here⟩
  obtain ⟨before, bindingKinds⟩ := constants_typed s.params constants
  rw [count, List.append_nil, hfront, hback] at eq
  have sparams : s.params = front ++ back := by rw [eq]
  refine .of_program valid (calling_typed rfl known (by rw [eq]) before ?_)
  rw [bindingKinds, split, count, sparams]
  refine Feeds.append (Feeds.append ?_ ?_) ?_
  · rw [List.append_assoc]
    exact Feeds.slots_front _ _ lead.symm
  · rw [← List.append_nil (front ++ back ++ kinds)]
    refine Feeds.slots_middle _ _ _ ?_ ?_ <;> simp [Signature.arity, sparams, width]
  · refine Feeds.slots_middle _ _ _ lead.symm ?_
    simp [Signature.arity, sparams]

theorem insertIgnored_ends (target : Handle) (pos : Nat) (kinds : List Kind) :
    Ends Halt.IsStatic
      (fun b => b.signature = ⟨target.signature.ret, target.signature.params.take pos ++ kinds ++
          target.signature.params.drop pos⟩ ∧
        ∀ (F : ClassLibrary) (K : Known), Knowledge F K → K (.handle target) →
          (∀ k ∈ kinds, k.Over F.Has) → b.Typed F K)
      (insertIgnored target pos kinds) := by
  unfold insertIgnored
  refine (Ends.ofExcept (Signature.replaceParams_ends _ _ _ _)).bind fun s => ?_
  rintro ⟨-, inside, eq, wf⟩
  refine ⟨eq, fun F K knowledge known given => ?_⟩
  have typed := knowledge.handle target known
  have valid : s.Valid F.Has := typed.valid.replaced given eq wf
  have lead : (target.signature.params.take pos).length = pos := by
    rw [List.length_take]
    exact Nat.min_eq_left inside
  refine .of_program valid (calling_typed rfl known (by rw [eq]) trivial ?_)
  rw [← List.take_append_drop pos target.signature.params, List.map_nil, List.append_nil]
  generalize target.signature.params.take pos = front at eq lead
  generalize target.signature.params.drop pos = back at eq
  have sparams : s.params = front ++ kinds ++ back := by rw [eq]
  rw [sparams]
  refine Feeds.append ?_ ?_
  · rw [List.append_assoc]
    exact Feeds.slots_front _ _ lead.symm
  · rw [← List.append_nil (front ++ kinds ++ back)]
    refine Feeds.slots_middle _ _ _ ?_ ?_ <;> simp [Signature.arity, sparams, lead]
    omega

theorem requireFeed_ends (own s : Signature) (slot source : Nat) :
    Ends Halt.IsStatic
      (fun _ => ∃ supplied wanted, s.params[source]? = some supplied ∧
        own.params[slot]? = some wanted ∧ (supplied == wanted) = true)
      (requireFeed own s slot source) := by
  unfold requireFeed
  refine Ends.check rfl fun _ => ?_
  refine Ends.bind (Ends.ofOption fun supplied h => h) fun supplied hsupplied => ?_
  refine Ends.bind (Ends.ofOption fun wanted h => h) fun wanted hwanted => ?_
  refine Ends.check rfl fun same => ?_
  exact ⟨supplied, wanted, hsupplied, hwanted, by simpa [bne] using same⟩

theorem permuteArguments_ends (target : Handle) (s : Signature) (reorder : List Nat) :
    Ends Halt.IsStatic
      (fun b => b.signature = s ∧ ∀ (F : ClassLibrary) (K : Known), Knowledge F K →
        K (.handle target) → s.Valid F.Has → b.Typed F K)
      (permuteArguments target s reorder) := by
  unfold permuteArguments
  refine Ends.check rfl fun lengths => ?_
  refine Ends.check rfl fun rets => ?_
  refine Ends.bind (P := fun _ => ∀ a ∈ reorder.mapIdx Prod.mk, ∃ supplied wanted,
    s.params[a.2]? = some supplied ∧ target.signature.params[a.1]? = some wanted ∧
      (supplied == wanted) = true) (forIn_ends fun a _ => ?_) fun _ fed => ?_
  · exact (requireFeed_ends target.signature s a.1 a.2).bind fun _ h => ⟨rfl, h⟩
  refine ⟨rfl, fun F K knowledge known valid => ?_⟩
  have own := (knowledge.handle target known).valid
  have ret : s.ret = target.signature.ret :=
    (Kind.beq_iff valid.ret_over own.ret_over).1 (by simpa [bne] using rets)
  refine .of_program valid (calling_typed rfl known ret trivial ?_)
  refine List.forall₂_of_length_eq_of_get (by simpa [bne, Signature.arity] using lengths)
    fun i h₁ h₂ => ?_
  have mem : (i, reorder[i]) ∈ reorder.mapIdx Prod.mk := List.mem_mapIdx.2 ⟨i, h₁, rfl⟩
  obtain ⟨supplied, wanted, hsupplied, hwanted, same⟩ := fed _ mem
  obtain ⟨_, rfl⟩ := List.getElem?_eq_some_iff.1 hwanted
  have supplied_over := valid.params_over _ (List.mem_of_getElem? hsupplied)
  have eq := (Kind.beq_iff supplied_over (own.params_over _ (List.getElem_mem h₂))).1 same
  refine ⟨supplied, by simpa using hsupplied, ?_⟩
  rw [eq]
  exact .refl _

theorem filteredParam_ends (own : Signature) (slot : Nat) (filter : Handle) :
    Ends Halt.IsStatic
      (fun accepted => filter.signature.params = [accepted] ∧
        ∃ param, own.params[slot]? = some param ∧ (filter.signature.ret == param) = true)
      (filteredParam own slot filter) := by
  unfold filteredParam
  refine Ends.bind (Ends.ofOption fun param h => h) fun param hparam => ?_
  split
  · next accepted h =>
    refine Ends.check rfl fun same => ?_
    exact ⟨h, param, hparam, by simpa [bne] using same⟩
  · rfl

theorem mem_of_filterAt {pos slot : Nat} {filters : List (Option Handle)} {f : Handle}
    (h : filterAt pos filters slot = some f) : some f ∈ filters := by
  unfold filterAt at h
  split at h
  · cases h
  · rw [Option.join_eq_some_iff] at h
    exact List.mem_of_getElem? h

/-- The parameters before the filters: what the target takes, or what the filter there takes. -/
def Filtered (own : List Kind) (pos : Nat) (filters : List (Option Handle)) (params : List Kind) :
    Prop :=
  params.length = own.length ∧ ∀ i (h₁ : i < params.length) (h₂ : i < own.length),
    (filterAt pos filters i = none ∧ params[i] = own[i]) ∨
      ∃ f, filterAt pos filters i = some f ∧ f.signature.params = [params[i]] ∧
        (f.signature.ret == own[i]) = true

theorem filteredParams_ends (own : Signature) (pos : Nat) (filters : List (Option Handle)) :
    Ends Halt.IsStatic (Filtered own.params pos filters)
      ((own.params.mapIdx Prod.mk).mapM fun (slot, param) =>
        match filterAt pos filters slot with
        | some filter => filteredParam own slot filter
        | none => pure param) := by
  refine (mapM_ends fun a _ => ?_).imp fun params replaced => ?_
  · obtain ⟨slot, param⟩ := a
    dsimp only
    split
    · exact (filteredParam_ends _ _ _).imp fun _ _ => trivial
    · trivial
  refine ⟨by rw [← replaced.length_eq, List.length_mapIdx], fun i h₁ h₂ => ?_⟩
  have here := replaced.get (by rw [List.length_mapIdx]; exact h₂) h₁
  simp only [List.get_eq_getElem, List.getElem_mapIdx] at here
  cases found : filterAt pos filters i with
  | none =>
    rw [found] at here
    exact .inl ⟨rfl, (Except.ok.inj here).symm⟩
  | some f =>
    rw [found] at here
    obtain ⟨unary, param, hparam, same⟩ := (filteredParam_ends _ _ _).of_eq_ok here
    rw [List.getElem?_eq_getElem h₂] at hparam
    cases hparam
    exact .inr ⟨f, rfl, unary, same⟩

/-- Filters over the classes at hand take kinds over them. -/
theorem Filtered.over {own params : List Kind} {pos : Nat} {filters : List (Option Handle)}
    (h : Filtered own pos filters params) (knowledge : Knowledge F K)
    (own_over : ∀ k ∈ own, k.Over F.Has) (known : ∀ f, some f ∈ filters → K (.handle f)) :
    ∀ k ∈ params, k.Over F.Has := by
  intro k mem
  obtain ⟨i, h₁, rfl⟩ := List.getElem_of_mem mem
  rcases h.2 i h₁ (h.1 ▸ h₁) with ⟨-, same⟩ | ⟨f, found, unary, -⟩
  · rw [same]
    exact own_over _ (List.getElem_mem _)
  · have filterValid := (knowledge.handle f (known f (mem_of_filterAt found))).valid
    exact filterValid.params_over _ (by simp [unary])

/-- Each filter leads from the parameter before it to what the target takes. -/
theorem Filtered.chains_typed {own params : List Kind} {pos : Nat}
    {filters : List (Option Handle)} (h : Filtered own pos filters params)
    (knowledge : Knowledge F K) (own_over : ∀ k ∈ own, k.Over F.Has)
    (known : ∀ f, some f ∈ filters → K (.handle f)) :
    ChainsTyped F K params
      (own.mapIdx fun slot param => (slot, (filterAt pos filters slot).toList.map fun filter =>
        fun s => (⟨param, .call filter [s]⟩ : Binding))) own := by
  refine List.forall₂_of_length_eq_of_get (by simp) fun i h₁ h₂ => ?_
  have inside : i < params.length := h.1 ▸ h₂
  refine ⟨params[i], by simp [inside], ?_⟩
  simp only [List.get_eq_getElem, List.getElem_mapIdx]
  rcases h.2 i inside h₂ with ⟨found, same⟩ | ⟨f, found, unary, same⟩
  · rw [found, same]
    exact .nil
  · have fKnown := known f (mem_of_filterAt found)
    have fValid := (knowledge.handle f fKnown).valid
    have ret : f.signature.ret = own[i] :=
      (Kind.beq_iff fValid.ret_over (own_over _ (List.getElem_mem h₂))).1 same
    rw [found]
    refine .cons (fun frame slot here => ⟨?_, rfl⟩) .nil
    show Step.Typed F K frame own[i] (.call f [slot])
    rw [← ret]
    exact .call fKnown (by simpa [unary] using Feeds.single here)

theorem filterArguments_ends (target : Handle) (pos : Nat) (filters : List (Option Handle)) :
    Ends Halt.IsStatic
      (fun b => ∀ (F : ClassLibrary) (K : Known), Knowledge F K → K (.handle target) →
        (∀ f, some f ∈ filters → K (.handle f)) → b.Typed F K)
      (filterArguments target pos filters) := by
  unfold filterArguments
  refine (requirePositions_ends _ _ _).bind fun _ inside => ?_
  refine (filteredParams_ends target.signature pos filters).bind fun params filtered => ?_
  refine (Ends.ofExcept (Signature.make_ends _ _)).bind fun s => ?_
  rintro ⟨rfl, wf⟩ F K knowledge known filtersKnown
  have own := (knowledge.handle target known).valid
  have params_over := filtered.over knowledge own.params_over filtersKnown
  have chains := filtered.chains_typed knowledge own.params_over filtersKnown
  obtain ⟨before, feeds⟩ := layout_typed chains
  rw [filtered.1] at before feeds
  exact .of_program ⟨wf, own.ret_over, params_over⟩
    (calling_typed filtered.1.symm known rfl before feeds)

theorem filterReturnValue_ends (target filter : Handle) :
    Ends Halt.IsStatic
      (fun b => ∀ (F : ClassLibrary) (K : Known), Knowledge F K → K (.handle target) →
        K (.handle filter) → b.Typed F K)
      (filterReturnValue target filter) := by
  unfold filterReturnValue
  refine Ends.check rfl fun accepted => ?_
  intro F K knowledge known filterKnown
  have own := (knowledge.handle target known).valid
  have taken := (knowledge.handle filter filterKnown).valid
  have called : Step.Typed F K target.signature.params target.signature.ret
      (.call target (Program.slots 0 target.signature.arity)) :=
    .call known (feeds_all F.Has target.signature)
  refine .of_program ⟨⟨own.wellFormed.arity_le, own.wellFormed.no_void⟩, taken.ret_over,
    own.params_over⟩ (calling_typed rfl filterKnown rfl ⟨called, trivial⟩ ?_)
  cases void : target.signature.returnsVoid with
  | true =>
    have none : filter.signature.params = [] := by simpa [void] using accepted
    rw [none]
    exact .nil
  | false =>
    have one : (filter.signature.params == [target.signature.ret]) = true := by
      simpa [void] using accepted
    rw [(kinds_beq_iff taken.params_over (by simpa using own.ret_over)).1 one]
    exact Feeds.single List.getElem?_concat_length

/-- A handle may be called with the parameters of its own that stand in the middle. -/
theorem computed_typed {h : Handle} {front back : List Kind} {pos : Nat}
    (known : K (.handle h)) (lead : front.length = pos) :
    Step.Typed F K (front ++ h.signature.params ++ back) h.signature.ret
      (.call h (Program.slots pos (pos + h.arity))) :=
  .call known (Feeds.slots_middle _ _ _ lead.symm (by rw [lead, Handle.arity]))

/-- A computed value behind the parameters may take the place of parameters of its kind. -/
theorem feeds_computed {params replaced : List Kind} {ret : Kind} {count : Nat}
    (length : replaced.length = count) (hret : ret.Over F.Has)
    (given : ∀ k ∈ replaced, k.Over F.Has)
    (found : replaced.find? (· != ret) = none) :
    Feeds F.Has (params ++ [ret]) (List.replicate count params.length) replaced := by
  refine List.forall₂_of_length_eq_of_get (by simp [length]) fun i h₁ h₂ => ?_
  have mem : replaced[i] ∈ replaced := List.getElem_mem h₂
  have same : (replaced[i] == ret) = true := by
    simpa [bne] using List.find?_eq_none.1 found _ mem
  refine ⟨ret, by simp, ?_⟩
  rw [List.get_eq_getElem, (Kind.beq_iff (given _ mem) hret).1 same]
  exact .refl ret

theorem collectArguments_ends (target : Handle) (pos : Nat) (filter : Handle) :
    Ends Halt.IsStatic
      (fun b => b.signature = ⟨target.signature.ret, target.signature.params.take pos ++
          filter.signature.params ++ target.signature.params.drop
            (pos + if filter.signature.returnsVoid then 0 else 1)⟩ ∧
        ∀ (F : ClassLibrary) (K : Known), Knowledge F K → K (.handle target) →
          K (.handle filter) → b.Typed F K)
      (collectArguments target pos filter) := by
  unfold collectArguments
  dsimp only
  generalize (if filter.signature.returnsVoid = true then 0 else 1) = fed
  refine (requirePositions_ends _ _ _).bind fun _ inside => ?_
  refine Ends.bind (Ends.ofOption fun replaced h => slice?_split h) fun replaced slice => ?_
  obtain ⟨front, back, hfront, hback, split, lead, width⟩ := slice
  split
  · rfl
  · next found =>
    have none : replaced.find? (· != filter.signature.ret) = none :=
      Option.eq_none_iff_forall_ne_some.2 found
    refine (Ends.ofExcept (Signature.replaceParams_ends _ _ _ _)).bind fun s => ?_
    rintro ⟨-, -, eq, wf⟩
    refine ⟨eq, fun F K knowledge known filterKnown => ?_⟩
    have own := (knowledge.handle target known).valid
    have taken := (knowledge.handle filter filterKnown).valid
    have valid : s.Valid F.Has := own.replaced taken.params_over eq wf
    have given : ∀ k ∈ replaced, k.Over F.Has := fun k hk => own.params_over k (by simp [split, hk])
    rw [hfront, hback] at eq
    have sparams : s.params = front ++ filter.signature.params ++ back := by rw [eq]
    have computed : Step.Typed F K s.params filter.signature.ret
        (.call filter (Program.slots pos (pos + filter.arity))) := by
      rw [sparams]
      exact computed_typed filterKnown lead
    refine .of_program valid (calling_typed rfl known (by rw [eq]) ⟨computed, trivial⟩ ?_)
    rw [split]
    refine Feeds.append (Feeds.append ?_ (feeds_computed width taken.ret_over given none)) ?_
    · rw [sparams, List.append_assoc, List.append_assoc]
      exact Feeds.slots_front _ _ lead.symm
    · rw [sparams]
      refine Feeds.slots_middle _ _ _ ?_ ?_ <;>
        simp [Signature.arity, Handle.arity, sparams, lead]
      omega

theorem foldArguments_ends (target : Handle) (pos : Nat) (combiner : Handle) :
    Ends Halt.IsStatic
      (fun b => ∀ (F : ClassLibrary) (K : Known), Knowledge F K → K (.handle target) →
        K (.handle combiner) → b.Typed F K)
      (foldArguments target pos combiner) := by
  unfold foldArguments
  dsimp only
  generalize (if combiner.signature.returnsVoid = true then 0 else 1) = folded
  refine (requirePositions_ends _ _ _).bind fun _ inside => ?_
  refine Ends.bind (Ends.ofOption fun replaced h => slice?_split h) fun replaced slice => ?_
  obtain ⟨front, back, hfront, hback, split, lead, width⟩ := slice
  split
  · rfl
  · next found =>
    have none : replaced.find? (· != combiner.signature.ret) = none :=
      Option.eq_none_iff_forall_ne_some.2 found
    refine Ends.bind (Ends.ofOption fun following h => slice?_split h) fun following slice => ?_
    obtain ⟨_, rest, -, -, follow, leads, -⟩ := slice
    refine Ends.check rfl fun same => ?_
    refine (Ends.ofExcept (Signature.replaceParams_ends _ _ _ _)).bind fun s => ?_
    rintro ⟨-, -, eq, wf⟩ F K knowledge known combinerKnown
    have own := (knowledge.handle target known).valid
    have taken := (knowledge.handle combiner combinerKnown).valid
    have valid : s.Valid F.Has := own.replaced (by simp) eq wf
    have given : ∀ k ∈ replaced, k.Over F.Has := fun k hk => own.params_over k (by simp [split, hk])
    have following_over : ∀ k ∈ following, k.Over F.Has :=
      fun k hk => own.params_over k (by simp [follow, hk])
    have follows : following = combiner.signature.params :=
      (kinds_beq_iff following_over taken.params_over).1 (by simpa [bne] using same)
    have tail : back = combiner.signature.params ++ rest := by
      rw [split, List.append_assoc _ following] at follow
      rw [← follows]
      exact (List.append_inj follow (by simp [lead, width, leads])).2
    rw [List.append_nil, hfront, hback] at eq
    have sparams : s.params = front ++ combiner.signature.params ++ rest := by simp [eq, tail]
    have computed : Step.Typed F K s.params combiner.signature.ret
        (.call combiner (Program.slots pos (pos + combiner.arity))) := by
      rw [sparams]
      exact computed_typed combinerKnown lead
    refine .of_program valid (calling_typed rfl known (by rw [eq]) ⟨computed, trivial⟩ ?_)
    rw [split]
    refine Feeds.append (Feeds.append ?_ (feeds_computed width taken.ret_over given none)) ?_
    · rw [sparams, List.append_assoc, List.append_assoc]
      exact Feeds.slots_front _ _ lead.symm
    · rw [sparams, List.append_assoc front, ← tail]
      refine Feeds.slots_middle _ _ _ lead.symm ?_
      simp [Signature.arity, sparams, tail]

end Blueprint
end TypedHandles
