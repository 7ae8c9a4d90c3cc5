import TypedHandles.Proofs.ControlTyping
import TypedHandles.Proofs.Scoping

/-!
Every blueprint is scoped, whatever it is made of: each way to make one refuses what does not fit,
or lays out a program that reads only slots that are there and passes each handle as many values as
it takes. And none of them looks for a parameter that is not there.
-/
namespace TypedHandles

variable {S : Scope}

/-- A halt that reports a failure, or that was cut off. -/
def Halt.Proper : Halt → Prop
  | .failed _ | .exhausted => True
  | .stuck => False

namespace Ends

variable {α : Type} {Q : α → Prop}

/-- What is refused is refused with a failure. -/
theorem proper {E : Failure → Prop} {x : Except Failure α} (h : Ends E Q x) :
    Ends Halt.Proper Q (Checked.ofExcept x) := by
  cases x with
  | ok a => exact h
  | error f => trivial

/-- A computation that ends with a result or a failure. -/
theorem moving {x : Checked α} (h : Ends Halt.IsStatic Q x) (moves : x ≠ .error .stuck) :
    Ends Halt.Proper Q x := by
  match x with
  | .ok a => exact h
  | .error (.failed _) | .error .exhausted => trivial
  | .error .stuck => exact absurd rfl moves

theorem ofSome {x : Option α} (h : ∃ a, x = some a ∧ Q a) :
    Ends Halt.Proper Q (Checked.ofOption x) := by
  obtain ⟨a, rfl, here⟩ := h
  exact here

end Ends

/-- A slice within a list is there, as long as it should be. -/
theorem slice?_ends {α : Type} {xs : List α} {start count : Nat}
    (inside : start + count ≤ xs.length) :
    Ends Halt.Proper (fun mid => mid.length = count)
      (Checked.ofOption (slice? xs start (start + count))) := by
  refine .ofSome ⟨(xs.drop start).take count, ?_, ?_⟩
  · unfold slice?
    rw [if_pos ⟨Nat.le_add_right _ _, inside⟩, Nat.add_sub_cancel_left]
  · rw [List.length_take, List.length_drop]
    omega

/-- The arity of an edited signature. -/
theorem Signature.replaceParams_arity (s : Signature) (start stop : Nat) (kinds : List Kind) :
    Ends (·.isStatic = true)
      (fun t => t.WellFormed ∧ t.ret = s.ret ∧ start ≤ stop ∧ stop ≤ s.arity ∧
        t.arity = start + kinds.length + (s.arity - stop))
      (s.replaceParams start stop kinds) := by
  refine (s.replaceParams_ends start stop kinds).imp fun t => ?_
  rintro ⟨ordered, inside, rfl, wf⟩
  refine ⟨wf, rfl, ordered, inside, ?_⟩
  simp only [arity, List.length_append, List.length_take, List.length_drop] at inside ⊢
  omega

theorem Kind.isVoid_of_isViewableAs {k l : Kind} {strict : Bool}
    (h : k.isViewableAs l strict = true) : k.isVoid = l.isVoid := by
  cases k <;> cases l <;> first | rfl | cases h

theorem Signature.arity_of_isConvertibleTo {s t : Signature} (h : s.isConvertibleTo t = true) :
    s.arity = t.arity := by
  simp only [isConvertibleTo, Bool.or_eq_true, Bool.and_eq_true, beq_iff_eq] at h
  rcases h with same | ⟨⟨lengths, -⟩, -⟩
  · exact arity_congr same
  · exact lengths

theorem Signature.shape_of_isViewableAs {s t : Signature} {strict : Bool}
    (h : s.isViewableAs t strict = true) : s.arity = t.arity ∧ s.ret.isVoid = t.ret.isVoid := by
  simp only [isViewableAs, Bool.and_eq_true, beq_iff_eq] at h
  exact ⟨h.1.1, Kind.isVoid_of_isViewableAs h.2⟩

namespace Blueprint

theorem requirePositions_proper (s : Signature) (pos count : Nat) :
    Ends Halt.Proper (fun _ => pos + count ≤ s.arity) (requirePositions s pos count) := by
  refine (requirePositions_ends s pos count).moving ?_
  unfold requirePositions
  split <;> nofun

/-! Handles made of kinds, values and actions. -/

theorem ofAction_scoped {s : Signature} {action : Action} (wf : s.WellFormed)
    (fits : action.Scoped S s.arity) : (ofAction s action).Scoped S := by
  refine ⟨wf, Program.single_scoped (s := s) (.leaf action)
    (.leaf ?_ (Passes.all s).inside)⟩
  rw [(Passes.all s).length_eq]
  exact fits

theorem identity_scoped (kind : Kind) :
    Ends (·.isStatic = true) (Blueprint.Scoped S) (identity kind) := by
  unfold identity
  refine (Signature.make_ends kind [kind]).bind fun s => ?_
  rintro ⟨rfl, wf⟩
  refine ⟨wf, rfl, trivial, resultSlot_isNone _ _, fun slot found => ?_⟩
  rw [eq_of_resultSlot found]
  exact Nat.one_pos

theorem empty_scoped {s : Signature} (wf : s.WellFormed) : (empty s).Scoped S :=
  ⟨wf, Program.single_scoped (fun _ => .const (.zero s.ret))
    (.const (.plain (Value.isPlain_zero _)))⟩

theorem zero_scoped (kind : Kind) :
    Ends (·.isStatic = true) (Blueprint.Scoped S) (zero kind) := by
  unfold zero
  refine (Signature.make_ends kind []).bind fun s => ?_
  rintro ⟨rfl, wf⟩
  exact empty_scoped wf

theorem constant_scoped (kind : Kind) {v : Value} (inScope : v.InScope S) :
    Ends (·.isStatic = true) (Blueprint.Scoped S) (constant kind v) := by
  unfold constant
  refine (Value.coerce_ends v kind).bind fun w fitted => ?_
  refine (Signature.make_ends kind []).bind fun s => ?_
  rintro ⟨rfl, wf⟩
  exact ⟨wf, Program.single_scoped (fun _ => .const w)
    (.const (Value.inScope_of_coerce inScope fitted))⟩

/-- A function of the library on parameters that it looks at. -/
theorem intrinsic_scoped {f : Intrinsic} {ret : Kind} {params : List Kind}
    (enough : f.needs ≤ params.length)
    (plain : ∀ name implementation instantiated, f ≠ .lambda name implementation instantiated) :
    Ends (·.isStatic = true) (Blueprint.Scoped S)
      (do let s ← Signature.make ret params; return ofAction s (.intrinsic f)) := by
  refine (Signature.make_ends ret params).bind fun s => ?_
  rintro ⟨rfl, wf⟩
  exact ofAction_scoped wf ⟨enough, fun _ _ _ eq => absurd eq (plain _ _ _)⟩

theorem throwException_scoped (ret : Kind) (exception : RefType) :
    Ends (·.isStatic = true) (Blueprint.Scoped S) (throwException ret exception) := by
  unfold throwException
  exact Ends.checkFailure rfl fun _ => intrinsic_scoped (f := .throwArgument) (Nat.zero_le _) nofun

theorem arrayItem_scoped (array : Kind) :
    Ends (·.isStatic = true) (Blueprint.Scoped S) (arrayItem array) :=
  (elementOf_ends array).bind fun _ _ => intrinsic_scoped (Nat.le_refl _) nofun

theorem arrayLength_scoped (array : Kind) :
    Ends (·.isStatic = true) (Blueprint.Scoped S) (arrayLength array) :=
  (elementOf_ends array).bind fun _ _ => intrinsic_scoped (Nat.le_refl _) nofun

theorem intLess_scoped : Ends (·.isStatic = true) (Blueprint.Scoped S) intLess :=
  intrinsic_scoped (Nat.le_refl _) nofun

theorem intIncrement_scoped : Ends (·.isStatic = true) (Blueprint.Scoped S) intIncrement :=
  intrinsic_scoped (Nat.le_refl _) nofun

/-! Handles at another signature. -/

theorem sharing_scoped {target : Handle} {s : Signature} (complete : S.Complete)
    (known : S.handle target) (wf : s.WellFormed)
    (shape : target.signature.arity = s.arity ∧ target.signature.ret.isVoid = s.ret.isVoid) :
    (sharing target s).Scoped S := by
  have fits := (complete.handle_iff target).1 known
  obtain ⟨arity, bindings, result, inside⟩ := fits.blueprint.program
  dsimp only at arity bindings result inside
  rw [shape.1] at arity bindings inside
  exact ⟨wf, arity, bindings, result.trans shape.2, inside⟩

theorem converting_scoped {target : Handle} {s : Signature} (known : S.handle target)
    (wf : s.WellFormed) (lengths : target.signature.arity = s.arity) :
    (converting target s).Scoped S := by
  have width : (target.signature.params.zip s.params).length = target.arity := by
    rw [List.length_zip]
    exact Nat.min_eq_left (Nat.le_of_eq lengths)
  obtain ⟨before, passes⟩ := layout_scoped (S := S) s.arity
    ((target.signature.params.zip s.params).mapIdx fun slot kinds =>
      (slot, Program.conversion kinds.2 kinds.1)) fun c mem => by
        obtain ⟨i, inside, rfl⟩ := List.mem_mapIdx.1 mem
        rw [width] at inside
        exact ⟨Nat.lt_of_lt_of_eq inside lengths, conversion_scoped _ _⟩
  rw [List.length_mapIdx, width] at passes
  exact ⟨wf, Program.chained_scoped known before passes (conversion_scoped _ _)⟩

theorem adapting_scoped {target : Handle} {s : Signature} (complete : S.Complete)
    (known : S.handle target) (wf : s.WellFormed)
    (lengths : target.signature.arity = s.arity) : (adapting target s).Scoped S := by
  unfold adapting
  split
  · next view => exact sharing_scoped complete known wf (Signature.shape_of_isViewableAs view)
  · exact converting_scoped known wf lengths

/-! Trailing arguments and arrays. -/

theorem spreader_scoped {target : Handle} (known : S.handle target) (array : Kind) (count : Nat) :
    Ends Halt.Proper (Blueprint.Scoped S) (spreader target array count) := by
  unfold spreader
  refine (elementOf_ends array).proper.bind fun element _ => ?_
  refine Ends.check trivial fun enough => ?_
  refine (Signature.replaceParams_arity _ _ _ _).proper.bind fun s => ?_
  rintro ⟨wf, ret, -, -, arity⟩
  dsimp only
  split
  · trivial
  generalize hstart : target.signature.arity - count = start at arity ⊢
  have width : (target.signature.paramsFrom start).length = count := by
    rw [Signature.paramsFrom, List.length_drop]
    unfold Signature.arity at hstart enough
    omega
  have harity : start + 1 = s.arity := by
    rw [arity, Nat.sub_self]
    rfl
  obtain ⟨before, passes⟩ := layout_scoped (S := S) (start + 1)
    ((target.signature.paramsFrom start).mapIdx fun index param =>
      (start, (fun slot => ⟨element, .spread slot index count⟩) ::
        Program.conversion element param)) fun c mem => by
    obtain ⟨i, inside, rfl⟩ := List.mem_mapIdx.1 mem
    rw [width] at inside
    exact ⟨Nat.lt_add_one start, List.forall_mem_cons.2
      ⟨fun _ _ slot => .spread slot inside, conversion_scoped _ _⟩⟩
  rw [List.length_mapIdx, width] at passes
  refine ⟨wf, Program.calling_scoped harity known (by rw [ret]) before ?_⟩
  have front : Passes (start + 1) (Program.slots 0 start) (start - 0) :=
    Passes.slots (Nat.le_add_right start 1)
  have all := (front.weaken (Nat.le_add_right _ _)).append passes
  have total : start - 0 + count = target.arity := by
    unfold Signature.arity at hstart enough
    unfold Handle.arity
    omega
  rwa [total] at all

theorem collector_scoped {target : Handle} (known : S.handle target) (array : Kind) {count : Nat}
    (few : target.signature.arity - 1 + count ≤ longestKindList) :
    Ends Halt.Proper (Blueprint.Scoped S) (collector target array count) := by
  unfold collector
  refine (elementOf_ends array).proper.bind fun element _ => ?_
  split
  · trivial
  · next trailing last =>
    obtain ⟨front, params⟩ := List.getLast?_eq_some_iff.1 last
    have own : target.signature.arity = front.length + 1 := by simp [Signature.arity, params]
    dsimp only
    rw [if_neg (Nat.not_lt.2 few)]
    refine Ends.check trivial fun _ => ?_
    refine (Signature.replaceParams_arity _ _ _ _).proper.bind fun s => ?_
    rintro ⟨wf, ret, -, -, arity⟩
    refine Ends.check trivial fun _ => ?_
    rw [own, Nat.add_sub_cancel, List.length_replicate, Nat.sub_self, Nat.add_zero] at arity
    rw [own, Nat.add_sub_cancel]
    refine ⟨wf, Program.calling_scoped arity.symm known (by rw [ret])
      ⟨.collect (Passes.slots (Nat.le_refl _)).inside, trivial⟩ ?_⟩
    have leading : Passes (front.length + count + 1) (Program.slots 0 front.length) front.length :=
      Passes.slots (by omega)
    have all := leading.append (Passes.single (Nat.lt_add_one (front.length + count)))
    rwa [← own] at all

/-! Adapters of arguments. -/

theorem insertArguments_scoped {target : Handle} (known : S.handle target) (pos : Nat)
    {values : List Value} (inScope : ∀ v ∈ values, v.InScope S) :
    Ends Halt.Proper (Blueprint.Scoped S) (insertArguments target pos values) := by
  unfold insertArguments
  refine (requirePositions_proper _ _ _).bind fun _ inside => ?_
  refine (slice?_ends inside).bind fun kinds width => ?_
  refine (mapM_ends fun a _ =>
    (Value.coerce_ends a.1 a.2).imp fun _ _ => trivial).proper.bind fun bound fitted => ?_
  have count : bound.length = values.length := by
    rw [← fitted.length_eq, List.length_zip, width, Nat.min_self]
  refine (Signature.replaceParams_arity _ _ _ _).proper.bind fun s => ?_
  rintro ⟨wf, ret, -, -, arity⟩
  have boundInScope : ∀ w ∈ bound, w.InScope S := by
    intro w mem
    obtain ⟨i, h₂, rfl⟩ := List.getElem_of_mem mem
    have h₁ : i < (values.zip kinds).length := by rw [fitted.length_eq]; exact h₂
    have here := fitted.get h₁ h₂
    exact Value.inScope_of_coerce
      (inScope _ (List.of_mem_zip (List.getElem_mem h₁)).1) here
  refine ⟨wf, Program.calling_scoped rfl known (by rw [ret])
    (constants_scoped _ _ boundInScope) ?_⟩
  rw [List.length_map, List.length_zip, width, ← count, Nat.min_self]
  have front : Passes (s.arity + bound.length) (Program.slots 0 pos) (pos - 0) :=
    Passes.slots (by omega)
  have middle : Passes (s.arity + bound.length)
      (Program.slots s.arity (s.arity + bound.length)) (s.arity + bound.length - s.arity) :=
    Passes.slots (Nat.le_refl _)
  have back : Passes (s.arity + bound.length) (Program.slots pos s.arity) (s.arity - pos) :=
    Passes.slots (by omega)
  have all := (front.append middle).append back
  have total : pos - 0 + (s.arity + bound.length - s.arity) + (s.arity - pos) = target.arity := by
    rw [arity, count]
    simp only [Signature.arity, Handle.arity, List.length_nil] at inside ⊢
    omega
  rwa [total] at all

theorem insertIgnored_scoped {target : Handle} (known : S.handle target) (pos : Nat)
    (kinds : List Kind) :
    Ends Halt.Proper (Blueprint.Scoped S) (insertIgnored target pos kinds) := by
  unfold insertIgnored
  refine (Signature.replaceParams_arity _ _ _ _).proper.bind fun s => ?_
  rintro ⟨wf, ret, -, inside, arity⟩
  refine ⟨wf, Program.calling_scoped rfl known (by rw [ret]) trivial ?_⟩
  have front : Passes s.arity (Program.slots 0 pos) (pos - 0) := Passes.slots (by omega)
  have back : Passes s.arity (Program.slots (pos + kinds.length) s.arity)
      (s.arity - (pos + kinds.length)) := Passes.slots (Nat.le_refl _)
  have all := front.append back
  have total : pos - 0 + (s.arity - (pos + kinds.length)) = target.arity := by
    rw [arity]
    simp only [Signature.arity, Handle.arity] at inside ⊢
    omega
  rwa [total] at all

theorem requireFeed_proper {own s : Signature} {slot : Nat} (inside : slot < own.arity)
    (source : Nat) :
    Ends Halt.Proper (fun _ => source < s.arity) (requireFeed own s slot source) := by
  unfold requireFeed
  refine Ends.check trivial fun below => ?_
  have supplied : source < s.params.length := Nat.lt_of_not_ge below
  refine Ends.bind (P := fun _ => True)
    (.ofSome ⟨_, List.getElem?_eq_getElem supplied, trivial⟩) fun _ _ => ?_
  refine Ends.bind (P := fun _ => True)
    (.ofSome ⟨_, List.getElem?_eq_getElem inside, trivial⟩) fun _ _ => ?_
  exact Ends.check trivial fun _ => supplied

theorem permuteArguments_scoped {target : Handle} (known : S.handle target) {s : Signature}
    (wf : s.WellFormed) (reorder : List Nat) :
    Ends Halt.Proper (Blueprint.Scoped S) (permuteArguments target s reorder) := by
  unfold permuteArguments
  refine Ends.check trivial fun lengths => ?_
  refine Ends.check trivial fun rets => ?_
  have length : reorder.length = target.signature.arity := by simpa [bne] using lengths
  have void : s.ret.isVoid = target.signature.ret.isVoid :=
    Kind.isVoid_congr (by simpa [bne] using rets)
  refine Ends.bind (P := fun _ => ∀ a ∈ reorder.mapIdx Prod.mk, a.2 < s.arity)
    (forIn_ends fun a mem => ?_) fun _ fed => ?_
  · obtain ⟨i, inside, rfl⟩ := List.mem_mapIdx.1 mem
    exact (requireFeed_proper (Nat.lt_of_lt_of_eq inside length) _).bind fun _ h => ⟨rfl, h⟩
  refine ⟨wf, Program.calling_scoped rfl known void.symm trivial ⟨fun source mem => ?_, length⟩⟩
  obtain ⟨i, inside, rfl⟩ := List.getElem_of_mem mem
  exact fed (i, reorder[i]) (List.mem_mapIdx.2 ⟨i, inside, rfl⟩)

theorem filteredParams_proper (own : Signature) (pos : Nat) (filters : List (Option Handle)) :
    Ends Halt.Proper (Filtered own.params pos filters)
      ((own.params.mapIdx Prod.mk).mapM fun (slot, param) =>
        match filterAt pos filters slot with
        | some filter => filteredParam own slot filter
        | none => pure param) := by
  refine (filteredParams_ends own pos filters).moving fun stuck => ?_
  refine (mapM_ends (E := Halt.Proper) fun a mem => ?_).of_eq_error stuck
  obtain ⟨i, inside, rfl⟩ := List.mem_mapIdx.1 mem
  dsimp only
  split
  · unfold filteredParam
    refine Ends.bind (P := fun _ => True)
      (.ofSome ⟨_, List.getElem?_eq_getElem inside, trivial⟩) fun _ _ => ?_
    split
    · exact Ends.check trivial fun _ => trivial
    · trivial
  · trivial

theorem filterArguments_scoped {target : Handle} (known : S.handle target) (pos : Nat)
    {filters : List (Option Handle)} (filtersKnown : ∀ f, some f ∈ filters → S.handle f) :
    Ends Halt.Proper (Blueprint.Scoped S) (filterArguments target pos filters) := by
  unfold filterArguments
  refine (requirePositions_proper _ _ _).bind fun _ _ => ?_
  refine (filteredParams_proper _ _ _).bind fun params filtered => ?_
  refine (Signature.make_ends _ _).proper.bind fun s => ?_
  rintro ⟨rfl, wf⟩
  have arity : target.signature.arity = params.length := filtered.1.symm
  obtain ⟨before, passes⟩ := layout_scoped (S := S) target.signature.arity
    (target.signature.params.mapIdx fun slot param =>
      (slot, (filterAt pos filters slot).toList.map fun filter => fun s =>
        (⟨param, .call filter [s]⟩ : Binding))) fun c mem => by
    obtain ⟨i, inside, rfl⟩ := List.mem_mapIdx.1 mem
    refine ⟨inside, fun f hf width slot here => ?_⟩
    obtain ⟨filter, found, rfl⟩ := List.mem_map.1 hf
    rw [Option.mem_toList] at found
    have unary : filter.arity = 1 := by
      rcases filtered.2 i (filtered.1 ▸ inside) inside with ⟨none, -⟩ | ⟨g, some, params, -⟩
      · rw [none] at found
        cases found
      · rw [some] at found
        cases found
        rw [Handle.arity, params]
        rfl
    exact .call (filtersKnown filter (mem_of_filterAt found)) (unary ▸ .single here)
  rw [List.length_mapIdx] at passes
  exact ⟨wf, Program.calling_scoped arity known rfl before passes⟩

theorem filterReturnValue_scoped {target filter : Handle} (complete : S.Complete)
    (known : S.handle target) (filterKnown : S.handle filter) :
    Ends Halt.Proper (Blueprint.Scoped S) (filterReturnValue target filter) := by
  unfold filterReturnValue
  refine Ends.check trivial fun accepted => ?_
  have own := ((complete.handle_iff target).1 known).blueprint.wellFormed
  refine ⟨⟨own.arity_le, own.no_void⟩, Program.calling_scoped rfl filterKnown rfl
    ⟨.call known (Passes.all target.signature), trivial⟩ ?_⟩
  cases void : target.signature.returnsVoid with
  | true =>
    have none : filter.signature.params = [] := by simpa [void] using accepted
    rw [Handle.arity, none]
    exact ⟨List.forall_mem_nil _, rfl⟩
  | false =>
    have one : (filter.signature.params == [target.signature.ret]) = true := by
      simpa [void] using accepted
    rw [Handle.arity, kinds_length_eq one]
    exact .single (Nat.lt_add_one _)

theorem collectArguments_scoped {target filter : Handle} (known : S.handle target) (pos : Nat)
    (filterKnown : S.handle filter) :
    Ends Halt.Proper (Blueprint.Scoped S) (collectArguments target pos filter) := by
  unfold collectArguments
  dsimp only
  generalize (if filter.signature.returnsVoid = true then 0 else 1) = fed
  refine (requirePositions_proper _ _ _).bind fun _ inside => ?_
  refine (slice?_ends inside).bind fun replaced _ => ?_
  split
  · trivial
  refine (Signature.replaceParams_arity _ _ _ _).proper.bind fun s => ?_
  rintro ⟨wf, ret, -, -, arity⟩
  change s.arity = pos + filter.arity + (target.arity - (pos + fed)) at arity
  have called : Passes s.arity (Program.slots pos (pos + filter.arity)) filter.arity := by
    have slots : Passes s.arity (Program.slots pos (pos + filter.arity))
        (pos + filter.arity - pos) := Passes.slots (by omega)
    rwa [Nat.add_sub_cancel_left] at slots
  refine ⟨wf, Program.calling_scoped rfl known (by rw [ret]) ⟨.call filterKnown called, trivial⟩ ?_⟩
  have front : Passes (s.arity + 1) (Program.slots 0 pos) (pos - 0) := Passes.slots (by omega)
  have back : Passes (s.arity + 1) (Program.slots (pos + filter.arity) s.arity)
      (s.arity - (pos + filter.arity)) := Passes.slots (by omega)
  have all := (front.append (.replicate (Nat.lt_add_one s.arity) fed)).append back
  have total : pos - 0 + fed + (s.arity - (pos + filter.arity)) = target.arity := by
    have inside : pos + fed ≤ target.arity := inside
    omega
  rwa [total] at all

theorem foldArguments_scoped {target combiner : Handle} (known : S.handle target) (pos : Nat)
    (combinerKnown : S.handle combiner) :
    Ends Halt.Proper (Blueprint.Scoped S) (foldArguments target pos combiner) := by
  unfold foldArguments
  dsimp only
  generalize (if combiner.signature.returnsVoid = true then 0 else 1) = folded
  refine (requirePositions_proper _ _ _).bind fun _ inside => ?_
  have within : pos + folded ≤ target.signature.params.length := by
    unfold Signature.arity at inside
    omega
  refine (slice?_ends within).bind fun replaced _ => ?_
  split
  · trivial
  have follow : pos + folded + combiner.arity ≤ target.signature.params.length := by
    unfold Signature.arity at inside
    omega
  refine (slice?_ends follow).bind fun following _ => ?_
  refine Ends.check trivial fun _ => ?_
  refine (Signature.replaceParams_arity _ _ _ _).proper.bind fun s => ?_
  rintro ⟨wf, ret, -, -, arity⟩
  change s.arity = pos + 0 + (target.arity - (pos + folded)) at arity
  change pos + folded + combiner.arity ≤ target.arity at follow
  have called : Passes s.arity (Program.slots pos (pos + combiner.arity)) combiner.arity := by
    have slots : Passes s.arity (Program.slots pos (pos + combiner.arity))
        (pos + combiner.arity - pos) := Passes.slots (by omega)
    rwa [Nat.add_sub_cancel_left] at slots
  refine ⟨wf, Program.calling_scoped rfl known (by rw [ret])
    ⟨.call combinerKnown called, trivial⟩ ?_⟩
  have front : Passes (s.arity + 1) (Program.slots 0 pos) (pos - 0) := Passes.slots (by omega)
  have back : Passes (s.arity + 1) (Program.slots pos s.arity) (s.arity - pos) :=
    Passes.slots (by omega)
  have all := (front.append (.replicate (Nat.lt_add_one s.arity) folded)).append back
  have total : pos - 0 + folded + (s.arity - pos) = target.arity := by omega
  rwa [total] at all

/-! Adapters that branch, catch and clean up. -/

theorem branching_scoped {test target fallback : Handle} (complete : S.Complete)
    (testKnown : S.handle test) (known : S.handle target) (fallbackKnown : S.handle fallback) :
    Ends Halt.Proper (Blueprint.Scoped S) (branching test target fallback) := by
  unfold branching
  refine Ends.check trivial fun same => ?_
  refine Ends.check trivial fun _ => ?_
  refine Ends.check trivial fun leading => ?_
  have own := ((complete.handle_iff target).1 known).blueprint.wellFormed
  refine ⟨own, Program.single_scoped (.branch test target fallback)
    (.branch testKnown known fallbackKnown (Passes.all target.signature) ?_ ?_)⟩
  · exact Signature.arity_congr (by simpa [bne] using same)
  · rw [(Passes.all target.signature).length_eq]
    exact length_le_of_isPrefixOf (by simpa [Signature.startsWith] using leading)

theorem catching_scoped {target handler : Handle} (complete : S.Complete)
    (known : S.handle target) (exception : RefType) (handlerKnown : S.handle handler) :
    Ends Halt.Proper (Blueprint.Scoped S) (catching target exception handler) := by
  unfold catching
  refine Ends.check trivial fun _ => ?_
  refine Ends.check trivial fun _ => ?_
  refine Ends.check trivial fun accepts => ?_
  refine Ends.check trivial fun leading => ?_
  have own := ((complete.handle_iff target).1 known).blueprint.wellFormed
  obtain ⟨param, rest, params, -⟩ := acceptsFirst_iff.1 (by simpa using accepts)
  have arity : handler.arity = rest.length + 1 := by rw [Handle.arity, params, List.length_cons]
  have leads : target.signature.startsWith rest = true := by
    simpa [Signature.paramsFrom, params] using leading
  have few : rest.length ≤ target.signature.arity := length_le_of_isPrefixOf leads
  refine ⟨own, Program.single_scoped (.catching target exception handler)
    (.catching known handlerKnown (Passes.all target.signature) ?_ ?_)⟩
  · omega
  · rw [(Passes.all target.signature).length_eq]
    omega

theorem finishing_scoped {target cleanup : Handle} (complete : S.Complete)
    (known : S.handle target) (cleanupKnown : S.handle cleanup) :
    Ends Halt.Proper (Blueprint.Scoped S) (finishing target cleanup) := by
  unfold finishing
  refine Ends.check trivial fun _ => ?_
  refine Ends.check trivial fun accepts => ?_
  refine Ends.check trivial fun results => ?_
  refine Ends.check trivial fun leading => ?_
  have own := ((complete.handle_iff target).1 known).blueprint.wellFormed
  obtain ⟨param, rest, params, -⟩ := acceptsFirst_iff.1 (by simpa using accepts)
  have arity : cleanup.arity = rest.length + 1 := by rw [Handle.arity, params, List.length_cons]
  -- the result is taken ahead of the arguments, if there is one
  have ahead : aheadOf target.signature.ret ≤ cleanup.arity := by
    unfold aheadOf
    cases void : target.signature.ret.isVoid with
    | true =>
      rw [if_pos rfl]
      omega
    | false =>
      rw [if_neg Bool.false_ne_true]
      cases rest with
      | nil =>
        simp only [Signature.returnsVoid, void, params] at results
        exact absurd rfl results
      | cons k others =>
        rw [arity, List.length_cons]
        omega
  have leads := length_le_of_isPrefixOf
    (show target.signature.startsWith _ = true by simpa using leading)
  rw [Signature.paramsFrom, List.length_drop] at leads
  refine ⟨own, Program.single_scoped (.finishing target cleanup)
    (.finishing known cleanupKnown (Passes.all target.signature) ahead ?_)⟩
  rw [(Passes.all target.signature).length_eq]
  change cleanup.arity - aheadOf target.signature.ret ≤ target.signature.arity at leads
  omega

theorem dynamicInvoker_scoped {site : CallSite} (wf : site.signature.WellFormed)
    (known : S.site site) : (dynamicInvoker site).Scoped S :=
  ⟨wf, Program.single_scoped (.dynamic site) (.dynamic known (Passes.all site.signature))⟩

/-! Loops. -/

theorem loop_scoped {clauses : List LoopClause}
    (known : ∀ c ∈ clauses, ∀ h ∈ c.functions, S.handle h) :
    Ends (·.isStatic = true) (Blueprint.Scoped S) (loop clauses) := by
  refine (Blueprint.loop_accepted clauses).imp ?_
  rintro _ ⟨outer, result, accepted, rfl⟩
  let s : Signature := ⟨LoopPlan.resultKind clauses result, outer⟩
  let plan : LoopPlan := ⟨clauses, LoopPlan.assignSlots 0 clauses, LoopPlan.carriedKinds clauses,
    result⟩
  have within : ∀ c ∈ clauses, c.Scoped S plan.carried.length outer.length := fun c hc => {
    known := known c hc
    init_arity := fun init hinit => length_le_of_isPrefixOf ((accepted.fits c hc).init init hinit)
    body_arity := fun f hf => by
      have leads := length_le_of_isPrefixOf ((accepted.fits c hc).body f hf)
      rwa [List.length_append] at leads }
  have planned : plan.Scoped S outer.length := ⟨within, rfl, rfl⟩
  refine ⟨accepted.wf, Program.single_scoped (s := s) (.loop plan)
    (.loop ?_ (Passes.all s).inside)⟩
  rw [(Passes.all s).length_eq]
  exact planned

end Blueprint
end TypedHandles
