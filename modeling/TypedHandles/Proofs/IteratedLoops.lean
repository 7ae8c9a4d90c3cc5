import TypedHandles.Proofs.WhileLoops

/-!
A loop over the items of an array is a left fold. It carries an index besides its variable; in each
round it asks for the length of the array, fetches the item at the index at the kind that the body
takes, and has the body take the item in place of the array and the index.
-/
namespace TypedHandles

/-- Rounds that count through a list fold it. -/
theorem Exec.repeatWhile_foldlM {σ τ ι α : Type} {items : List ι} (place : σ → Nat → τ)
    {f : σ → ι → Exec σ} {test : τ → Exec Bool} {next : τ → Exec τ} {done : τ → Exec α}
    {result : σ → Exec α}
    (tests : ∀ v, ∀ k ≤ items.length, test (place v k) = pure (decide (k < items.length)))
    (steps : ∀ v k (inside : k < items.length), next (place v k) = (do
      return place (← f v items[k]) (k + 1)))
    (ends : ∀ v, done (place v items.length) = result v) {limit k : Nat}
    (within : k ≤ items.length) (enough : items.length < limit + k) (v : σ) :
    repeatWhile test next done limit (place v k) = (items.drop k).foldlM f v >>= result := by
  induction limit generalizing k v with
  | zero => omega
  | succ limit ih =>
    unfold repeatWhile
    rw [tests v k within, pure_bind]
    rcases Nat.lt_or_eq_of_le within with inside | rfl
    · have later := fun w => ih (k := k + 1) inside (by omega) w
      rw [decide_eq_true inside, if_pos rfl, steps v k inside, List.drop_eq_getElem_cons inside,
        List.foldlM_cons]
      simp only [bind_assoc, pure_bind, later]
    · rw [decide_eq_false (Nat.lt_irrefl _), if_neg Bool.false_ne_true, ends, List.drop_length,
        List.foldlM_nil, pure_bind]

/-! Handing over values. -/

namespace Value

variable {v : Value} {source target : Kind}

/-- What a handle that yields a kind hands over at a signature that wants another one: the value as
it stands where its kind may be read as the wanted one, else what it converts to. -/
def passedAs (v : Value) (source target : Kind) : Except Failure Value :=
  if source.isViewableAs target true then .ok v else v.convert source target

/-- Values that move up along a strict view are handed over as they convert. -/
theorem passedAs_eq_convert
    (up : source.isViewableAs target true = true → v.conforms target = true) :
    v.passedAs source target = v.convert source target := by
  unfold passedAs
  split
  · next view =>
    unfold convert
    split
    · rfl
    · next differ =>
      obtain ⟨s, t, rfl, rfl, -⟩ := (Kind.isViewableAs_strict_iff.1 view).resolve_left differ
      exact (checkCast_of_conforms (up view)).symm
  · rfl

/-- A value that is not handed over fails as a cast. -/
theorem castFails_of_passedAs {failure : Failure}
    (fails : v.passedAs source target = .error failure) :
    CastFails (.error failure) := by
  unfold passedAs at fails
  split at fails
  · cases fails
  · rw [← fails]
    refine (convert_eq_ok_or_castFails v source target).resolve_left fun ⟨w, done⟩ => ?_
    cases done.symm.trans fails

/-- In a library of classes the items of an array belong to the element kind of every kind that the
array belongs to, and are handed over as they convert. -/
theorem passedAs_of_array {F : ClassLibrary} {own element wanted : Kind} {items : List Value}
    (ownOver : own.Over F.Has) (elementOver : element.Over F.Has) (wantedOver : wanted.Over F.Has)
    (conforms : (array own items).conforms (.arrayOf element) = true)
    (well : ∀ item ∈ items, item.Over F.Has ∧ item.conforms own = true) :
    ∀ item ∈ items, item.conforms element = true ∧
      item.passedAs element wanted = item.convert element wanted := by
  intro item mem
  obtain ⟨itemOver, belongs⟩ := well item mem
  have flows := Kind.flowsInto_of_array ownOver elementOver conforms item itemOver belongs
  refine ⟨flows, passedAs_eq_convert fun view => ?_⟩
  exact conforms_of_isViewableAs itemOver elementOver wantedOver view flows

end Value

/-! The functions that such a loop is made of. -/

/-- What is left of two lists where one is a prefix of the other, after parts of one length. -/
theorem isPrefixOf_of_append {α : Type} [BEq α] {xs ys zs ws : List α}
    (lengths : xs.length = zs.length) (leads : (xs ++ ys).isPrefixOf (zs ++ ws) = true) :
    ys.isPrefixOf ws = true := by
  induction xs generalizing zs with
  | nil =>
    obtain rfl := List.eq_nil_of_length_eq_zero lengths.symm
    exact leads
  | cons x xs ih =>
    cases zs with
    | nil => cases lengths
    | cons z zs =>
      rw [List.cons_append, List.cons_append, List.isPrefixOf, Bool.and_eq_true] at leads
      exact ih (Nat.succ.inj lengths) leads.2

/-- A program that computes one value ahead of its call. -/
theorem Program.calling_one_perform {run : Runner} {limit : Nat} {args : List Value}
    {slots : List Slot} {b : Binding} {target : Handle} {values : Value → List Value}
    (carries : ∀ v, Carries (args ++ [v]) slots (values v)) :
    (calling args.length [b] target slots).perform run limit args = (do
      let v ← b.step.perform run limit b.kind args
      let result ← run.call target (values v)
      return target.signature.ret.kept result) := by
  unfold calling perform
  simp only [List.cons_append, List.nil_append, fill, bind_assoc, pure_bind, Step.perform,
    Step.gather_of_carries (carries _)]
  refine bind_congr fun v => bind_congr fun result => ?_
  have kept : (args ++ [v] ++ [result])[args.length + [b].length]? = some result := by simp
  unfold resultSlot Kind.kept
  cases target.signature.ret.isVoid with
  | true => rfl
  | false =>
    show Exec.ofOption _ = _
    rw [kept]
    rfl

/-- A slot after some values. -/
theorem Carries.after (before : List Value) (v : Value) (more : List Value) :
    Carries (before ++ v :: more) [before.length] [v] :=
  .cons (by simp) .nil

/-- The slots of some values between others. -/
theorem Carries.middle (before own after : List Value) :
    Carries (before ++ own ++ after)
      (Program.slots before.length (before.length + own.length)) own := by
  have carries : Carries (before ++ own ++ after)
      (Program.slots before.length (before.length + own.length)) _ :=
    Carries.slots (by simp)
  simpa using carries

namespace Handle

variable {h d target filter : Handle} {t u : HandleTable} {pos : Nat}

/-- What an accepted filter of arguments is. A filter without a result takes the place of no
argument. -/
theorem collectArguments_eq_ok
    (made : Build.allocate (Blueprint.collectArguments target pos filter) t = (.ok d, u)) :
    let fed := if filter.signature.returnsVoid then 0 else 1
    pos + fed ≤ target.arity ∧ d.signature.WellFormed ∧
      d.signature = ⟨target.signature.ret, target.signature.params.take pos ++
        filter.signature.params ++ target.signature.params.drop (pos + fed)⟩ ∧
      d.program = .calling d.arity
        [⟨filter.signature.ret, .call filter (Program.slots pos (pos + filter.arity))⟩] target
        (Program.slots 0 pos ++ List.replicate fed d.arity ++
          Program.slots (pos + filter.arity) d.arity) := by
  intro fed
  have collected : Ends Halt.IsStatic (fun b =>
      pos + fed ≤ target.arity ∧ b.signature.WellFormed ∧
      b.signature = ⟨target.signature.ret, target.signature.params.take pos ++
        filter.signature.params ++ target.signature.params.drop (pos + fed)⟩ ∧
      b.program = .calling b.signature.arity
        [⟨filter.signature.ret, .call filter (Program.slots pos (pos + filter.arity))⟩] target
        (Program.slots 0 pos ++ List.replicate fed b.signature.arity ++
          Program.slots (pos + filter.arity) b.signature.arity))
      (Blueprint.collectArguments target pos filter) := by
    unfold Blueprint.collectArguments
    refine (Blueprint.requirePositions_ends _ _ _).bind fun _ inside => ?_
    refine Ends.bind (P := fun _ => True) (Ends.ofOption fun _ _ => trivial) fun replaced _ => ?_
    dsimp only
    split
    · rfl
    · refine (Ends.ofExcept (Signature.replaceParams_ends _ _ _ _)).bind fun s spec => ?_
      obtain ⟨-, -, signature, wellFormed⟩ := spec
      exact ⟨inside, wellFormed, signature, rfl⟩
  exact Build.of_allocate collected made

/-- A handle that computes one of its arguments by a filter of other arguments. -/
theorem call_collectArguments (feeds : filter.signature.returnsVoid = false)
    (made : Build.allocate (Blueprint.collectArguments target pos filter) t = (.ok d, u)) :
    d.signature = ⟨target.signature.ret, target.signature.params.take pos ++
      filter.signature.params ++ target.signature.params.drop (pos + 1)⟩ ∧
    ∀ (host : Host) (n : Nat) (before own after : List Value), before.length = pos →
      own.length = filter.arity → before.length + 1 + after.length = target.arity →
      (runCode host (n + 1)).call d (before ++ own ++ after) = (do
        let v ← (runCode host n).call filter own
        let result ← (runCode host n).call target (before ++ v :: after)
        return target.signature.ret.kept result) := by
  obtain ⟨inside, -, signature, program⟩ := collectArguments_eq_ok made
  simp only [feeds, Bool.false_eq_true, if_false] at inside signature program
  refine ⟨signature, fun host n before own after atPos ofFilter rest => ?_⟩
  have lengths : (before ++ own ++ after).length = d.arity := by
    have params : target.signature.params.length = target.arity := rfl
    have own_params : filter.signature.params.length = filter.arity := rfl
    rw [arity, signature]
    simp only [List.length_append, List.length_take, List.length_drop, params, own_params]
    omega
  have computed : Carries (before ++ own ++ after) (Program.slots pos (pos + filter.arity)) own :=
    atPos ▸ ofFilter ▸ Carries.middle before own after
  have carries : ∀ v, Carries (before ++ own ++ after ++ [v])
      (Program.slots 0 pos ++ List.replicate 1 d.arity ++
        Program.slots (pos + filter.arity) d.arity) (before ++ v :: after) := by
    intro v
    have front : Carries (before ++ own ++ after) (Program.slots 0 pos) before := by
      have := Carries.middle [] before (own ++ after)
      simpa [atPos] using this
    have last : Carries (before ++ own ++ after ++ [v]) (List.replicate 1 d.arity) [v] :=
      lengths ▸ Carries.after _ v []
    have back : Carries (before ++ own ++ after) (Program.slots (pos + filter.arity) d.arity)
        after := by
      have := Carries.middle (before ++ own) after []
      simpa [← lengths, atPos, ofFilter, Nat.add_assoc] using this
    rw [List.append_cons before v after]
    exact List.rel_append (List.rel_append (front.weaken _) last) (back.weaken _)
  show d.program.perform (runCode host n) n (before ++ own ++ after) = _
  rw [program]
  rw [← lengths] at carries ⊢
  rw [Program.calling_one_perform carries]
  simp only [Step.perform, Step.gather_of_carries computed, pure_bind]

/-- Nothing is remembered of a handle that was just made. -/
theorem recalls_of_accept {b : Except Failure Blueprint} (made : Build.accept b t = (.ok h, u))
    (caller : Signature) : u.Recalls h caller := by
  cases b with
  | ok b =>
    cases made
    exact HandleTable.recalls_new t _ _ _ caller
  | error failure => cases made

variable {array element wanted : Kind}

/-- The greatest length of an array whose indices are 32-bit integers. -/
def longestArray : Nat := Int32.maxValue.toNatClampNeg

theorem longestArray_eq : longestArray = 2147483647 := by decide

/-- The getter of items. -/
theorem call_arrayItem (items? : array.element? = some element)
    (made : Build.accept (Blueprint.arrayItem array) t = (.ok h, u)) :
    h.signature = ⟨element, [array, .int]⟩ ∧
    ∀ (host : Host) (n : Nat) (own : Kind) (items : List Value) (k : Nat)
      (inside : k < items.length), items.length ≤ longestArray → items[k].conforms element = true →
      (runCode host (n + 2)).call h [.array own items, .int (.ofNat k)] = pure items[k] := by
  have getter : Ends Halt.IsStatic (fun b => b.signature = ⟨element, [array, .int]⟩ ∧
      b.program = .single b.signature (.leaf (.intrinsic .arrayItem)))
      (Checked.ofExcept (Blueprint.arrayItem array)) := by
    refine Ends.ofExcept ?_
    unfold Blueprint.arrayItem Blueprint.elementOf
    rw [items?]
    exact (Signature.make_ends _ _).bind fun s spec => ⟨spec.1, rfl⟩
  obtain ⟨signature, performs⟩ := Build.of_allocate getter made
  dsimp only at signature performs
  refine ⟨signature, fun host n own items k inside short conforms => ?_⟩
  rw [longestArray_eq] at short
  have positive : ¬ Int32.ofNat k < 0 := by
    rw [Int32.lt_iff_toInt_lt, Int32.toInt_ofNat_of_lt (by omega)]
    simp
  have found : (if Int32.ofNat k < 0 then none else items[(Int32.ofNat k).toNatClampNeg]?) =
      some items[k] := by
    rw [if_neg positive, Int32.toNatClampNeg_ofNat_of_lt (by omega),
      List.getElem?_eq_getElem inside]
  have performs : h.Performs (.intrinsic .arrayItem) := performs
  refine performs.call_of_pure (by rw [signature]; rfl) ?_ (by rw [signature]; exact conforms)
  unfold Action.perform Intrinsic.perform
  dsimp only
  rw [found]

/-- The length of an array. -/
theorem call_arrayLength (made : Build.accept (Blueprint.arrayLength array) t = (.ok h, u)) :
    h.signature = ⟨.int, [array]⟩ ∧
    ∀ (host : Host) (n : Nat),
      (∀ own items, (runCode host (n + 2)).call h [.array own items] =
        pure (.int (.ofNat items.length))) ∧
      (runCode host (n + 2)).call h [.null] = throwNew .nullPointer "array is null" := by
  have length : Ends Halt.IsStatic (fun b => b.signature = ⟨.int, [array]⟩ ∧
      b.program = .single b.signature (.leaf (.intrinsic .arrayLength)))
      (Checked.ofExcept (Blueprint.arrayLength array)) := by
    refine Ends.ofExcept ?_
    unfold Blueprint.arrayLength
    refine (Blueprint.elementOf_ends array).bind fun _ _ => ?_
    exact (Signature.make_ends _ _).bind fun s spec => ⟨spec.1, rfl⟩
  obtain ⟨signature, performs⟩ := Build.of_allocate length made
  dsimp only at signature performs
  have performs : h.Performs (.intrinsic .arrayLength) := performs
  refine ⟨signature, fun host n => ⟨fun own items => ?_, ?_⟩⟩
  · exact performs.call_of_pure (by rw [signature]; rfl) rfl (by rw [signature]; rfl)
  · rw [performs.call (by rw [signature]; rfl)]
    rfl

/-- The getter of items, adapted to the kind that is wanted of them. -/
theorem call_itemAs {getter fetch : Handle} {u' : HandleTable}
    (items? : array.element? = some element)
    (made : Build.accept (Blueprint.arrayItem array) t = (.ok getter, u))
    (adapted : getter.asType ⟨wanted, [array, .int]⟩ u = (.ok fetch, u')) :
    fetch.signature.params = [array, .int] ∧ fetch.signature.returnsVoid = wanted.isVoid ∧
    (wanted.isVoid = false → ∀ (host : Host) (n : Nat) (own : Kind) (items : List Value) (k : Nat)
      (inside : k < items.length), items.length ≤ longestArray → items[k].conforms element = true →
      (runCode host (n + 3)).call fetch [.array own items, .int (.ofNat k)] =
        Exec.ofExcept (items[k].passedAs element wanted)) := by
  let caller : Signature := ⟨wanted, [array, .int]⟩
  obtain ⟨signature, fetches⟩ := call_arrayItem items? made
  have recalls := recalls_of_accept made caller
  have convertible : getter.signature.isConvertibleTo caller = true := by
    cases refused : getter.signature.isConvertibleTo caller with
    | true => rfl
    | false => cases adapted.symm.trans (asType_of_not_isConvertibleTo recalls refused)
  obtain ⟨a, u'', adapted', same, code⟩ := asType_of_isConvertibleTo recalls convertible
  obtain ⟨rfl, -⟩ : fetch = a ∧ _ := by
    cases adapted.symm.trans adapted'
    exact ⟨rfl, trivial⟩
  have params : fetch.signature.params = [array, .int] := by
    unfold codeFor at code
    split at code
    · rw [(Code.program.inj code).1, signature]
    · rw [(Code.program.inj code).1]
  have ret : (fetch.signature.ret == wanted) = true := (Bool.and_eq_true_iff.1 same).1
  refine ⟨params, Kind.isVoid_congr ret, fun nonVoid host n own items k inside short conforms => ?_⟩
  have asIs : getter.servesAsIs caller = element.isViewableAs wanted true := by
    have views : getter.signature.isViewableAs caller true = element.isViewableAs wanted true := by
      simp [signature, caller, Signature.isViewableAs, Signature.arity, Kind.isViewableAs_refl]
    rw [servesAsIs, views, Bool.or_eq_right_iff_imp]
    intro same
    have same : (getter.signature.ret == wanted) = true := (Bool.and_eq_true_iff.1 same).1
    rw [signature] at same
    exact Kind.isViewableAs_strict_iff.2 (.inl same)
  have served : runCode host (n + 3) (getter.codeFor caller) [.array own items, .int (.ofNat k)] =
      _ := runCode_codeFor_eq rfl (by rw [arity, signature]; rfl) (n + 2)
  unfold Runner.call
  rw [code, served, asIs]
  unfold Value.passedAs
  split
  · exact fetches host (n + 1) own items k inside short conforms
  · have unchanged : Value.convertAll ([.array own items, .int (.ofNat k)].zip
        (caller.params.zip getter.signature.params)) = .ok [.array own items, .int (.ofNat k)] := by
      simp [caller, signature, Value.convertAll, Value.convert_self]
      rfl
    have kept : ∀ v, wanted.kept v = v := fun v => by rw [Kind.kept, nonVoid]; rfl
    rw [unchanged]
    show (do
      let result ← (runCode host (n + 2)).call getter [.array own items, .int (.ofNat k)]
      let converted ← Exec.ofExcept (result.convert getter.signature.ret wanted)
      return wanted.kept converted) = _
    rw [fetches host n own items k inside short conforms, pure_bind, signature]
    simp only [kept, bind_pure]

/-- What a filter feeds a parameter with is not `void`. -/
theorem isVoid_of_collectArguments (found : target.signature.params[pos]? = some wanted)
    (returns : filter.signature.returnsVoid = wanted.isVoid)
    (made : Build.allocate (Blueprint.collectArguments target pos filter) t = (.ok d, u)) :
    wanted.isVoid = false := by
  obtain ⟨-, wellFormed, signature, -⟩ := collectArguments_eq_ok made
  cases void : wanted.isVoid with
  | false => rfl
  | true =>
    -- Such a filter would leave the parameter where it is, and no parameter is `void`.
    rw [returns, void, if_pos rfl, Nat.add_zero] at signature
    have mem : wanted ∈ d.signature.params := by
      rw [signature]
      refine List.mem_append_right _ (List.mem_of_getElem? (i := 0) ?_)
      rw [List.getElem?_drop]
      exact found
    exact absurd (Kind.isVoid_iff.1 void) (wellFormed.no_void wanted mem)

variable {kind : Kind}

/-- The comparison of an index with the length of an array, which is asked for each time. -/
theorem call_withinBounds {less length compared inBounds : Handle}
    {t₁ u₁ t₂ u₂ t₃ u₃ : HandleTable} (makesLess : Build.accept Blueprint.intLess t = (.ok less, u))
    (makesLength : Build.accept (Blueprint.arrayLength array) t₁ = (.ok length, u₁))
    (collects : Build.allocate (Blueprint.collectArguments less 1 length) t₂ = (.ok compared, u₂))
    (drops : compared.dropArguments 0 (variableKinds kind) t₃ = (.ok inBounds, u₃)) :
    inBounds.signature = ⟨.bool, variableKinds kind ++ [.int, array]⟩ ∧
    ∀ (host : Host) (n : Nat) (v : Value),
      (∀ own (items : List Value), items.length ≤ longestArray → ∀ k ≤ items.length,
        (runCode host (n + 4)).call inBounds
            (kind.carried v ++ [.int (.ofNat k), .array own items]) =
          pure (.bool (decide (k < items.length)))) ∧
      ∀ i, (runCode host (n + 4)).call inBounds (kind.carried v ++ [.int i, .null]) =
        throwNew .nullPointer "array is null" := by
  obtain ⟨less_signature, compares⟩ := call_intLess makesLess
  obtain ⟨length_signature, measures⟩ := call_arrayLength makesLength
  have feeds : length.signature.returnsVoid = false := by rw [length_signature]; rfl
  obtain ⟨signature, calls⟩ := call_collectArguments feeds collects
  rw [less_signature, length_signature] at signature
  have nonVoid : compared.signature.ret.isVoid = false := by rw [signature]; rfl
  obtain ⟨inBounds_signature, ignores⟩ := call_ignoring nonVoid drops
  rw [signature] at inBounds_signature
  have whole : compared.arity = 2 := by rw [arity, signature]; rfl
  -- The length comes first, then the comparison.
  have compared : ∀ (host : Host) (n : Nat) (i v : Value),
      (runCode host (n + 3)).call compared [i, v] = (do
        let bound ← (runCode host (n + 2)).call length [v]
        return .bool (i.isBelow bound)) := by
    intro host n i v
    rw [show [i, v] = [i] ++ [v] ++ [] from rfl, calls host (n + 2) [i] [v] [] rfl
      (by rw [arity, length_signature]; rfl) (by rw [arity, less_signature]; rfl)]
    refine bind_congr fun bound => ?_
    rw [List.singleton_append, compares, pure_bind, less_signature]
    rfl
  refine ⟨inBounds_signature, fun host n v => ⟨fun own items short k within => ?_, fun i => ?_⟩⟩
  · rw [longestArray_eq] at short
    refine ignores host (n + 3) _ _ _ (kind.carried_length v) whole.symm fun m => ?_
    have below : (Value.int (.ofNat k)).isBelow (.int (.ofNat items.length)) =
        decide (k < items.length) :=
      decide_eq_decide.2 (Int32.ofNat_lt_iff_lt (by omega) (by omega))
    exact (compared host (m + n) _ _).trans (by rw [(measures host _).1, pure_bind, below])
  · refine ignores host (n + 3) _ _ _ (kind.carried_length v) whole.symm fun m => ?_
    exact (compared host (m + n) _ _).trans (by rw [(measures host _).2]; rfl)

/-- The functions that are made for a loop over the items of an array. -/
structure IteratedParts (array element wanted : Kind) (body step increment inBounds : Handle) :
    Prop where
  step_signature : step.signature = ⟨body.signature.ret, variableKinds body.signature.ret ++
    [.int, array] ++ body.signature.params.drop ((variableKinds body.signature.ret).length + 1)⟩
  visits : ∀ host n v own (items : List Value) k (inside : k < items.length) rest,
    items.length ≤ longestArray → items[k].conforms element = true →
    (variableKinds body.signature.ret).length + 1 + rest.length = body.arity →
    (runCode host (n + 5)).call step
        (body.signature.ret.carried v ++ .int (.ofNat k) :: .array own items :: rest) = (do
      let item ← Exec.ofExcept (items[k].passedAs element wanted)
      let w ← (runCode host (n + 3)).call body (body.signature.ret.carried v ++ item :: rest)
      return body.signature.ret.kept w)
  increment_signature : increment.signature = ⟨.int, variableKinds body.signature.ret ++ [.int]⟩
  increments : ∀ host n v k,
    (runCode host (n + 3)).call increment (body.signature.ret.carried v ++ [.int (.ofNat k)]) =
      pure (.int (.ofNat (k + 1)))
  inBounds_signature : inBounds.signature =
    ⟨.bool, variableKinds body.signature.ret ++ [.int, array]⟩
  compares : ∀ host n v,
    (∀ own (items : List Value), items.length ≤ longestArray → ∀ k ≤ items.length,
      (runCode host (n + 4)).call inBounds
          (body.signature.ret.carried v ++ [.int (.ofNat k), .array own items]) =
        pure (.bool (decide (k < items.length)))) ∧
    ∀ i, (runCode host (n + 4)).call inBounds (body.signature.ret.carried v ++ [.int i, .null]) =
      throwNew .nullPointer "array is null"

/-- The body, with the index and the array in place of the item. -/
theorem call_visiting {body getter fetch fetched step : Handle} {stepped : Signature} {pos : Nat}
    {u₁ t₂ u₂ t₃ u₃ t₄ u₄ : HandleTable} (items? : array.element? = some element)
    (atPos : (variableKinds body.signature.ret).length = pos)
    (found : body.signature.params[pos]? = some wanted)
    (makesGetter : Build.accept (Blueprint.arrayItem array) t = (.ok getter, u))
    (makesFetch : getter.asType ⟨wanted, [array, .int]⟩ u = (.ok fetch, u₁))
    (collects : Build.allocate (Blueprint.collectArguments body pos fetch) t₂ = (.ok fetched, u₂))
    (signs : Build.ofChecked (Checked.ofExcept (Signature.make body.signature.ret
      (variableKinds body.signature.ret ++ [.int, array] ++
        body.signature.paramsFrom (pos + 1)))) t₃ = (.ok stepped, u₃))
    (permutes : Build.allocate (Blueprint.permuteArguments fetched stepped
      (Program.slots 0 pos ++ [pos + 1, pos] ++ Program.slots (pos + 2) fetched.arity)) t₄ =
        (.ok step, u₄)) :
    step.signature = ⟨body.signature.ret, variableKinds body.signature.ret ++ [.int, array] ++
      body.signature.params.drop (pos + 1)⟩ ∧
    ∀ host n v own (items : List Value) k (inside : k < items.length) rest,
      items.length ≤ longestArray → items[k].conforms element = true →
      pos + 1 + rest.length = body.arity →
      (runCode host (n + 5)).call step
          (body.signature.ret.carried v ++ .int (.ofNat k) :: .array own items :: rest) = (do
        let item ← Exec.ofExcept (items[k].passedAs element wanted)
        let w ← (runCode host (n + 3)).call body (body.signature.ret.carried v ++ item :: rest)
        return body.signature.ret.kept w) := by
  obtain ⟨fetch_params, returns, fetches⟩ := call_itemAs items? makesGetter makesFetch
  have nonVoid := isVoid_of_collectArguments found returns collects
  obtain ⟨fetched_signature, calls⟩ := call_collectArguments (returns.trans nonVoid) collects
  have stepped_eq := ((Signature.make_ends _ _).of_eq_ok
    (Checked.ofExcept_eq_ok (congrArg Prod.fst signs))).1
  rw [stepped_eq] at permutes
  obtain ⟨signature, permutes⟩ := call_permuteArguments permutes
  refine ⟨signature, fun host n v own items k inside rest short conforms lengths => ?_⟩
  have params : body.signature.params.length = body.arity := rfl
  have carried : (body.signature.ret.carried v).length = pos :=
    (Kind.carried_length _ _).trans atPos
  have fetch_arity : fetch.arity = 2 := by rw [arity, fetch_params]; rfl
  have fetched_arity : fetched.arity = pos + 2 + rest.length := by
    rw [arity, fetched_signature, fetch_params]
    simp only [List.length_append, List.length_take, List.length_drop, params, List.length_cons,
      List.length_nil]
    omega
  have whole : (body.signature.ret.carried v ++ .int (.ofNat k) :: .array own items ::
      rest).length = step.arity := by
    rw [arity, signature]
    simp only [List.length_append, List.length_cons, List.length_nil, carried, atPos,
      Signature.paramsFrom, List.length_drop, params]
    omega
  generalize body.signature.ret.carried v = front at carried whole ⊢
  have carries : Carries (front ++ .int (.ofNat k) :: .array own items :: rest)
      (Program.slots 0 pos ++ [pos + 1, pos] ++ Program.slots (pos + 2) fetched.arity)
      (front ++ [.array own items, .int (.ofNat k)] ++ rest) := by
    have first : Carries (front ++ .int (.ofNat k) :: .array own items :: rest)
        (Program.slots 0 pos) front := by
      simpa [carried] using Carries.middle [] front (.int (.ofNat k) :: .array own items :: rest)
    have last : Carries (front ++ .int (.ofNat k) :: .array own items :: rest)
        (Program.slots (pos + 2) fetched.arity) rest := by
      have rest' := Carries.middle (front ++ [.int (.ofNat k), .array own items]) rest []
      simpa [carried, fetched_arity] using rest'
    refine List.rel_append (List.rel_append first ?_) last
    exact .cons (by simp [← carried]) (.cons (by simp [← carried]) .nil)
  rw [permutes host (n + 4) _ _ whole carries,
    calls host (n + 3) front [.array own items, .int (.ofNat k)] rest carried fetch_arity.symm
      (carried.symm ▸ lengths), fetches nonVoid host n own items k inside short conforms]
  simp only [bind_assoc, pure_bind, fetched_signature, Kind.kept_kept]

/-- What a loop over items is made of, once it is accepted. -/
theorem iteratedLoop_eq_ok {init : Option Handle} {body : Handle}
    (built : iteratedLoop array init body t = (.ok h, u)) :
    ∃ element wanted step increment inBounds zero fini t₁ u₁ t₂ u₂ t₃,
      array.element? = some element ∧
      body.signature.startsWith (variableKinds body.signature.ret) = true ∧
      body.signature.params[(variableKinds body.signature.ret).length]? = some wanted ∧
      IteratedParts array element wanted body step increment inBounds ∧
      returning body.signature.ret [] t₁ = (.ok fini, u₁) ∧
      Build.accept (Blueprint.constant .int (.int 0)) t₂ = (.ok zero, u₂) ∧
      loop [⟨init, some step, none, fini⟩, ⟨some zero, some increment, some inBounds, none⟩] t₃ =
        (.ok h, u) := by
  unfold iteratedLoop at built
  cases items? : array.element? with
  | none =>
    rw [items?] at built
    cases built
  | some element =>
    rw [items?] at built
    dsimp only [Option.isNone] at built
    rw [if_neg Bool.false_ne_true] at built
    split at built
    · obtain ⟨_, _, -, built⟩ := bind_eq_ok built
      cases built
    next takes =>
    obtain ⟨wanted, _, finds, built⟩ := bind_eq_ok built
    obtain ⟨getter, t₁, makesGetter, built⟩ := bind_eq_ok built
    obtain ⟨item, t₂, makesItem, built⟩ := bind_eq_ok built
    obtain rfl : t₁ = t₂ := congrArg Prod.snd makesItem
    obtain ⟨fetch, _, makesFetch, built⟩ := bind_eq_ok built
    obtain ⟨fetched, _, makesFetched, built⟩ := bind_eq_ok built
    obtain ⟨stepped, _, makesStepped, built⟩ := bind_eq_ok built
    obtain ⟨step, _, makesStep, built⟩ := bind_eq_ok built
    obtain ⟨less, _, makesLess, built⟩ := bind_eq_ok built
    obtain ⟨length, _, makesLength, built⟩ := bind_eq_ok built
    obtain ⟨compared, _, makesCompared, built⟩ := bind_eq_ok built
    obtain ⟨inBounds, _, makesInBounds, built⟩ := bind_eq_ok built
    obtain ⟨plus, _, makesPlus, built⟩ := bind_eq_ok built
    obtain ⟨increment, _, makesIncrement, built⟩ := bind_eq_ok built
    obtain ⟨fini, _, makesFini, built⟩ := bind_eq_ok built
    obtain ⟨zero, _, makesZero, built⟩ := bind_eq_ok built
    have leads : body.signature.startsWith (variableKinds body.signature.ret) = true := by
      simpa using (Bool.or_eq_false_iff.1 (eq_false_of_ne_true takes)).2
    have found :
        body.signature.params[(variableKinds body.signature.ret).length]? = some wanted := by
      cases at? : body.signature.params[(variableKinds body.signature.ret).length]? with
      | none =>
        rw [at?] at finds
        cases finds
      | some kind =>
        rw [at?] at finds
        cases finds
        rfl
    have item_eq := ((Signature.make_ends _ _).of_eq_ok
      (Checked.ofExcept_eq_ok (congrArg Prod.fst makesItem))).1
    rw [item_eq] at makesFetch
    obtain ⟨step_signature, visits⟩ := call_visiting items? rfl found makesGetter makesFetch
      makesFetched makesStepped makesStep
    obtain ⟨increment_signature, increments⟩ := call_incrementLast makesPlus makesIncrement
    obtain ⟨inBounds_signature, compares⟩ :=
      call_withinBounds makesLess makesLength makesCompared makesInBounds
    have counts : ∀ host n v k, (runCode host (n + 3)).call increment
        (body.signature.ret.carried v ++ [.int (.ofNat k)]) = pure (.int (.ofNat (k + 1))) := by
      intro host n v k
      rw [increments host n _ _ (Kind.carried_length _ v), Int32.ofNat_add]
      rfl
    exact ⟨element, wanted, step, increment, inBounds, zero, fini, _, _, _, _, _, rfl, leads, found,
      ⟨step_signature, visits, increment_signature, counts, inBounds_signature, compares⟩,
      makesFini, makesZero, built⟩

end Handle
/-! Loops that count their rounds. -/

/-- The variable after an item is visited: the item is handed over, and the body runs on it. -/
def Handle.visit (body : Handle) (element wanted : Kind) (run : Runner) (args : List Value)
    (v item : Value) : Exec Value := do
  let item ← Exec.ofExcept (item.passedAs element wanted)
  let w ← run.front body (body.signature.ret.carried v ++ item :: args)
  return body.signature.ret.kept w

namespace NamedLoop

/-- A variable, and after it an index. -/
def indexed (kind : Kind) (v : Value) (k : Nat) : Variables
  | 0 => kind.kept v
  | 1 => .int (.ofNat k)
  | _ => .void

variable {run : Runner} {args : List Value} {kind : Kind} {a c : LoopClause}

theorem assign_variable (same : a.variableKind = kind) (v w : Value) (k : Nat) :
    assign (a, 0) w (indexed kind v k) = indexed kind w k := by
  funext i
  match i with
  | 0 => cases void : kind.isVoid <;>
      simp [assign, LoopClause.hasVariable, indexed, Kind.kept, same, void]
  | 1 | _ + 2 => exact assign_of_ne (by simp) w _

theorem indexed_kept (v : Value) (k : Nat) : indexed kind (kind.kept v) k = indexed kind v k := by
  funext i
  match i with
  | 0 => exact kind.kept_kept v
  | 1 | _ + 2 => rfl

theorem assign_index (int : c.variableKind = .int) (v : Value) (j k : Nat) :
    assign (c, 1) (.int (.ofNat k)) (indexed kind v j) = indexed kind v k := by
  funext i
  match i with
  | 1 => exact kept_assign int 1 _ _
  | 0 | _ + 2 => exact assign_of_ne (by simp) _ _

theorem visible_indexed (same : a.variableKind = kind) (int : c.variableKind = .int) (v : Value)
    (k : Nat) : visible [(a, 0), (c, 1)] (indexed kind v k) =
      kind.carried v ++ [.int (.ofNat k)] := by
  rw [show [(a, 0), (c, 1)] = [(a, 0)] ++ [(c, 1)] from rfl, visible_append, visible_single same,
    visible_single int]
  exact congrArg (· ++ [.int (.ofNat k)]) (kind.carried_kept v)

/-- The clauses of a loop with a variable and an index. -/
def indexedClauses (init : Option Handle) (step : Handle) (fini : Option Handle)
    (zero increment inBounds : Handle) : List LoopClause :=
  [⟨init, some step, none, fini⟩, ⟨some zero, some increment, some inBounds, none⟩]

variable {init fini : Option Handle} {body step increment inBounds zero : Handle}

/-- A loop with an index starts from its variable and the index zero. -/
theorem perform_indexed (same : step.signature.ret = body.signature.ret)
    (int : increment.signature.ret = .int)
    (fromZero : run.front zero args = pure (.int (.ofNat 0))) (limit : Nat) :
    let clauses := indexedClauses init step fini zero increment inBounds
    perform run args clauses limit = (do
      let v ← WhileLoop.start init body run args
      Exec.repeatWhile
        (fun vars => allHold run (visible clauses.zipIdx vars ++ args) [inBounds])
        (fun vars => clauses.zipIdx.foldlM (NamedLoop.step run args clauses.zipIdx) vars)
        (fun vars => finish run (visible clauses.zipIdx vars ++ args) fini.toList)
        limit (indexed body.signature.ret v 0)) := by
  intro clauses
  let a : LoopClause := ⟨init, some step, none, fini⟩
  let c : LoopClause := ⟨some zero, some increment, some inBounds, none⟩
  have first : initial run args a =
      init.elim (pure (.zero body.signature.ret)) (run.front · args) := by
    rw [← same]
    cases init <;> rfl
  have second : initial run args c = pure (.int (.ofNat 0)) := fromZero
  have finis : clauses.filterMap (·.fini) = fini.toList := by cases fini <;> rfl
  have none : assign (c, 1) (.int (.ofNat 0)) (fun _ => .void) =
      indexed body.signature.ret .void 0 := by
    funext i
    match i with
    | 1 => exact kept_assign (show c.variableKind = .int from int) 1 _ _
    | 0 => exact (assign_of_ne (by simp) _ _).trans (by simp [indexed, Kind.kept])
    | _ + 2 => exact assign_of_ne (by simp) _ _
  have starts : NamedLoop.start run args clauses.zipIdx = (do
      let v ← WhileLoop.start init body run args
      return indexed body.signature.ret v 0) := by
    show NamedLoop.start run args [(a, 0), (c, 1)] = _
    unfold WhileLoop.start
    simp only [NamedLoop.start, first, second, bind_assoc, pure_bind, none,
      assign_variable (a := a) same, indexed_kept]
  unfold perform
  dsimp only
  rw [starts, finis]
  simp only [bind_assoc, pure_bind]
  rfl

/-- What the functions of a loop over some items do on its frames. -/
structure Walks (run : Runner) (args : List Value) (kind : Kind) (items : List Value)
    (visit : Value → Value → Exec Value) (step : Handle) (fini : Option Handle)
    (zero increment inBounds : Handle) : Prop where
  step_ret : step.signature.ret = kind
  increment_ret : increment.signature.ret = .int
  zero : run.front zero args = pure (.int (.ofNat 0))
  step : ∀ v k (inside : k < items.length),
    run.front step (kind.carried v ++ .int (.ofNat k) :: args) = visit v items[k]
  increment : ∀ v k, run.front increment (kind.carried v ++ .int (.ofNat k) :: args) =
    pure (.int (.ofNat (k + 1)))
  inBounds : ∀ v, ∀ k ≤ items.length, run.front inBounds
    (kind.carried v ++ .int (.ofNat k) :: args) = pure (.bool (decide (k < items.length)))
  fini : ∀ v k, finish run (kind.carried v ++ .int (.ofNat k) :: args) fini.toList =
    pure (kind.kept v)

/-- A loop over some items folds them. -/
theorem Walks.perform {items : List Value} {visit : Value → Value → Exec Value}
    (walks : Walks run args body.signature.ret items visit step fini zero increment inBounds)
    {limit : Nat} (enough : items.length < limit) :
    NamedLoop.perform run args (indexedClauses init step fini zero increment inBounds) limit = (do
      let v ← WhileLoop.start init body run args
      let w ← items.foldlM visit v
      return body.signature.ret.kept w) := by
  let a : LoopClause := ⟨init, some step, none, fini⟩
  let c : LoopClause := ⟨some zero, some increment, some inBounds, none⟩
  have kind : a.variableKind = body.signature.ret := walks.step_ret
  have int : c.variableKind = .int := walks.increment_ret
  have sees : ∀ v k, visible [(a, 0), (c, 1)] (indexed body.signature.ret v k) ++ args =
      body.signature.ret.carried v ++ .int (.ofNat k) :: args := by
    intro v k
    rw [visible_indexed kind int, List.append_assoc]
    rfl
  rw [perform_indexed walks.step_ret walks.increment_ret walks.zero]
  refine bind_congr fun v => ?_
  refine Exec.repeatWhile_foldlM (indexed body.signature.ret) (fun v k within => ?_)
    (fun v k inside => ?_) (fun v => ?_) (Nat.zero_le _) enough v
  · show allHold run (visible [(a, 0), (c, 1)] _ ++ args) [inBounds] = _
    rw [sees, allHold_single, walks.inBounds v k within]
    rfl
  · show [(a, 0), (c, 1)].foldlM (NamedLoop.step run args [(a, 0), (c, 1)]) _ = _
    rw [List.foldlM_cons, step_of_some (show a.step = some step from rfl), sees,
      walks.step v k inside]
    simp only [bind_assoc, pure_bind, assign_variable kind, List.foldlM_cons, List.foldlM_nil,
      step_of_some (show c.step = some increment from rfl), sees, walks.increment,
      assign_index int]
  · show finish run (visible [(a, 0), (c, 1)] _ ++ args) fini.toList = _
    rw [sees, walks.fini]

end NamedLoop

namespace Handle

variable {array element wanted : Kind} {body h : Handle} {init : Option Handle} {t u : HandleTable}

/-- A fold over visits keeps nothing but the variable. -/
theorem foldlM_visit_kept (run : Runner) (args items : List Value) (v : Value) :
    (do
      let w ← items.foldlM (body.visit element wanted run args) (body.signature.ret.kept v)
      return body.signature.ret.kept w) =
      items.foldlM (body.visit element wanted run args) (body.signature.ret.kept v) := by
  induction items generalizing v with
  | nil => simp only [List.foldlM_nil, pure_bind, Kind.kept_kept]
  | cons item rest ih =>
    rw [List.foldlM_cons]
    unfold visit at ih ⊢
    simp only [bind_assoc, pure_bind, ih]

/-- No item is visited after one that is not handed over, nor is the body run on it. -/
theorem foldlM_visit_of_error {run : Runner} {args : List Value} {item : Value} {failure : Failure}
    (fails : item.passedAs element wanted = .error failure) (before after : List Value)
    (v : Value) :
    (before ++ item :: after).foldlM (body.visit element wanted run args) v = (do
      let _ ← before.foldlM (body.visit element wanted run args) v
      Exec.refuse failure) := by
  have stops : ∀ w, body.visit element wanted run args w item = Exec.refuse failure := by
    intro w
    unfold visit
    rw [fails]
    rfl
  simp only [List.foldlM_append, List.foldlM_cons, stops]
  rfl

/-- No item is visited after one that the body fails on. -/
theorem foldlM_visit_of_fails {run : Runner} {args : List Value} {item passed v : Value}
    {before : List Value} {start : Exec Value} {s s' s'' : State} {e : Halt}
    (begun : (start >>= before.foldlM (body.visit element wanted run args)) s = (.ok v, s'))
    (passes : item.passedAs element wanted = .ok passed)
    (fails : run.front body (body.signature.ret.carried v ++ passed :: args) s' = (.error e, s''))
    (after : List Value) :
    (start >>= (before ++ item :: after).foldlM (body.visit element wanted run args)) s =
      (.error e, s'') := by
  have stops : body.visit element wanted run args v item s' = (.error e, s'') := by
    unfold visit
    rw [passes, show Exec.ofExcept (.ok passed) = pure passed from rfl, pure_bind]
    exact bind_of_error fails
  have split : (start >>= (before ++ item :: after).foldlM (body.visit element wanted run args)) =
      (do
        let v ← start >>= before.foldlM (body.visit element wanted run args)
        let w ← body.visit element wanted run args v item
        after.foldlM (body.visit element wanted run args) w) := by
    rw [bind_assoc]
    exact bind_congr fun v => by rw [List.foldlM_append]; rfl
  rw [split, bind_of_ok begun, bind_of_error stops]

/-- A function takes the variable and as many of the other values as it takes besides. -/
theorem front_carried (run : Runner) {f : Handle} {kind : Kind} {count : Nat}
    (takes : f.arity = (variableKinds kind).length + count) (v : Value) (more : List Value) :
    run.front f (kind.carried v ++ more) = run.call f (kind.carried v ++ more.take count) := by
  unfold Runner.front
  rw [takes, ← kind.carried_length v, List.take_length_add_append]

/-- The functions of a loop over items do on its frames what they are made for. -/
theorem IteratedParts.walks {step increment inBounds zero : Handle} {fini : Option Handle}
    {items rest : List Value} {t₁ u₁ : HandleTable}
    (parts : IteratedParts array element wanted body step increment inBounds)
    (returns : returning body.signature.ret [] t = (.ok fini, u))
    (makesZero : Build.accept (Blueprint.constant .int (.int 0)) t₁ = (.ok zero, u₁))
    (takes : (variableKinds body.signature.ret).length < body.arity)
    (enough : body.arity ≤ (variableKinds body.signature.ret).length + 1 + rest.length)
    (short : items.length ≤ longestArray) (conform : ∀ item ∈ items, item.conforms element = true)
    (own : Kind) (host : Host) (n : Nat) :
    NamedLoop.Walks (runCode host (n + 5)) (.array own items :: rest) body.signature.ret items
      (body.visit element wanted (runCode host (n + 3)) rest) step fini zero increment
      inBounds := by
  let count := body.arity - ((variableKinds body.signature.ret).length + 1)
  have params : body.signature.params.length = body.arity := rfl
  have body_arity : body.arity = (variableKinds body.signature.ret).length + (count + 1) := by
    omega
  have step_arity : step.arity = (variableKinds body.signature.ret).length + (count + 2) := by
    rw [arity, parts.step_signature]
    simp only [List.length_append, List.length_drop, List.length_cons, List.length_nil, params]
    omega
  have increment_arity : increment.arity = (variableKinds body.signature.ret).length + 1 := by
    rw [arity, parts.increment_signature]
    simp
  have inBounds_arity : inBounds.arity = (variableKinds body.signature.ret).length + 2 := by
    rw [arity, parts.inBounds_signature]
    simp
  constructor
  case step_ret => rw [parts.step_signature]
  case increment_ret => rw [parts.increment_signature]
  case zero => exact front_zero makesZero host (n + 4) _
  case step =>
    intro v k inside
    have taken : (variableKinds body.signature.ret).length + 1 + (rest.take count).length =
        body.arity := by
      rw [List.length_take]
      omega
    unfold visit
    rw [front_carried _ step_arity, List.take_succ_cons, List.take_succ_cons,
      parts.visits host n v own items k inside _ short (conform _ (List.getElem_mem inside)) taken]
    refine bind_congr fun item => ?_
    rw [front_carried _ body_arity, List.take_succ_cons]
  case increment =>
    intro v k
    rw [front_carried _ increment_arity]
    exact parts.increments host (n + 2) v k
  case inBounds =>
    intro v k within
    rw [front_carried _ inBounds_arity]
    exact (parts.compares host (n + 1) v).1 own items short k within
  case fini => exact fun v k => finish_returning returns [] rfl host (n + 2) v _

/-- A loop over the items of an array takes the array first. After it, it takes what the body takes
after the item; what the init takes leads what the loop takes. -/
theorem IteratedParts.signature {step increment inBounds zero : Handle} {fini : Option Handle}
    {t₁ u₁ : HandleTable}
    (parts : IteratedParts array element wanted body step increment inBounds)
    (returns : returning body.signature.ret [] t₁ = (.ok fini, u₁))
    (made : loop (NamedLoop.indexedClauses init step fini zero increment inBounds) t = (.ok h, u)) :
    ∃ first others, h.signature = ⟨body.signature.ret, first :: others⟩ ∧
      (array == first) = true ∧
      (body.signature.params.drop ((variableKinds body.signature.ret).length + 1)).isPrefixOf
        others = true ∧
      ∀ f, init = some f → f.signature.params.isPrefixOf (first :: others) = true := by
  obtain ⟨result, accepted, -, -⟩ := loop_eq_ok made
  have carried : LoopPlan.carriedKinds
      (NamedLoop.indexedClauses init step fini zero increment inBounds) =
        variableKinds body.signature.ret ++ [.int] := by
    have int : Kind.int.isVoid = false := rfl
    simp only [NamedLoop.indexedClauses, LoopPlan.carriedKinds, List.map_cons, List.map_nil,
      LoopClause.variableKind, parts.step_signature, parts.increment_signature, variableKinds]
    cases void : body.signature.ret.isVoid <;> simp [void, int]
  have fits := accepted.fits ⟨init, some step, none, fini⟩ List.mem_cons_self
  have leads : (variableKinds body.signature.ret ++ [Kind.int] ++ (array ::
      body.signature.params.drop ((variableKinds body.signature.ret).length + 1))).isPrefixOf
        (variableKinds body.signature.ret ++ [Kind.int] ++ h.signature.params) = true := by
    have leads := fits.body step (by simp [LoopClause.bodyFunctions])
    rw [carried, parts.step_signature] at leads
    simpa using leads
  have leads := isPrefixOf_of_append rfl leads
  have ret : h.signature.ret = body.signature.ret :=
    loop_ret returns (by cases fini <;> rfl) made
  cases params : h.signature.params with
  | nil =>
    rw [params] at leads
    cases leads
  | cons first others =>
    rw [params] at leads fits
    obtain ⟨same, leads⟩ := Bool.and_eq_true_iff.1 leads
    exact ⟨first, others, Signature.ext ret params, same, leads, fits.init⟩

/-- A loop over no array at all fails when it asks for the length. -/
theorem IteratedParts.perform_null {step increment inBounds zero : Handle} {fini : Option Handle}
    (parts : IteratedParts array element wanted body step increment inBounds)
    (makesZero : Build.accept (Blueprint.constant .int (.int 0)) t = (.ok zero, u))
    (rest : List Value) (host : Host) (n : Nat) :
    NamedLoop.perform (runCode host (n + 5)) (.null :: rest)
        (NamedLoop.indexedClauses init step fini zero increment inBounds) (n + 5) = (do
      let _ ← WhileLoop.start init body (runCode host (n + 5)) (.null :: rest)
      throwNew .nullPointer "array is null") := by
  let a : LoopClause := ⟨init, some step, none, fini⟩
  let c : LoopClause := ⟨some zero, some increment, some inBounds, none⟩
  have step_ret : step.signature.ret = body.signature.ret := by rw [parts.step_signature]
  have increment_ret : increment.signature.ret = .int := by rw [parts.increment_signature]
  have inBounds_arity : inBounds.arity = (variableKinds body.signature.ret).length + 2 := by
    rw [arity, parts.inBounds_signature]
    simp
  rw [NamedLoop.perform_indexed step_ret increment_ret (front_zero makesZero host (n + 4) _)]
  refine bind_congr fun v => ?_
  have asks : (runCode host (n + 5)).front inBounds
      (NamedLoop.visible [(a, 0), (c, 1)] (NamedLoop.indexed body.signature.ret v 0) ++
        Value.null :: rest) = throwNew .nullPointer "array is null" := by
    rw [NamedLoop.visible_indexed (a := a) (c := c) step_ret increment_ret, List.append_assoc,
      front_carried _ inBounds_arity]
    exact (parts.compares host (n + 1) v).2 _
  unfold Exec.repeatWhile
  show (do
    let another ← NamedLoop.allHold (runCode host (n + 5))
      (NamedLoop.visible [(a, 0), (c, 1)] (NamedLoop.indexed body.signature.ret v 0) ++
        Value.null :: rest) [inBounds]
    _) = _
  rw [NamedLoop.allHold_single, asks]
  rfl

/-- A loop over the items of an array is a left fold. The variable starts by the init, or from
zero; then each item, in the order of the array, is converted to the kind that the body takes, and
what the body returns for the variable, the item and leading ones of the other arguments is the
variable from then on, and in the end the result. An item that does not convert ends the loop with a
failed cast, after the body was run on the items before it alone; so does a call of the body that
fails, with the failure of the call. Where there is no array the init runs, and nothing else does.

An item whose kind may be read as the wanted one is handed over as it stands. In a library of
classes that is what it converts to. -/
theorem iterated_loops (built : iteratedLoop array init body t = (.ok h, u)) :
    ∃ element wanted first others,
      (array = .arrayOf element ∧ (array == first) = true ∧
        h.signature = ⟨body.signature.ret, first :: others⟩ ∧
        (∀ f, init = some f → f.signature.params.isPrefixOf h.signature.params = true) ∧
        body.signature.startsWith (variableKinds body.signature.ret) = true ∧
        body.signature.params[(variableKinds body.signature.ret).length]? = some wanted ∧
        (body.signature.params.drop ((variableKinds body.signature.ret).length + 1)).isPrefixOf
          others = true) ∧
      (∀ (host : Host) (n : Nat) (rest : List Value),
        let start (args : List Value) := WhileLoop.start init body (runCode host (n + 5)) args
        let visit := body.visit element wanted (runCode host (n + 3)) rest
        (Conform (.null :: rest) h.signature.params →
          h.invokeExact (runCode host (n + 6)) (.null :: rest) = (do
            let _ ← start (.null :: rest)
            throwNew .nullPointer "array is null")) ∧
        ∀ (own : Kind) (items : List Value),
          let args := .array own items :: rest
          Conform args h.signature.params → (∀ item ∈ items, item.conforms element = true) →
          items.length ≤ longestArray → items.length < n + 5 →
          h.invokeExact (runCode host (n + 6)) args = (start args >>= items.foldlM visit) ∧
          ∀ before item after, items = before ++ item :: after →
            (∀ failure, item.passedAs element wanted = .error failure →
              Value.CastFails (item.passedAs element wanted) ∧
              h.invokeExact (runCode host (n + 6)) args = (do
                let _ ← start args >>= before.foldlM visit
                Exec.refuse failure)) ∧
            ∀ passed, item.passedAs element wanted = .ok passed → ∀ v s s' s'' e,
              (start args >>= before.foldlM visit) s = (.ok v, s') →
              (runCode host (n + 3)).front body
                  (body.signature.ret.carried v ++ passed :: rest) s' = (.error e, s'') →
              h.invokeExact (runCode host (n + 6)) args s = (.error e, s'')) ∧
      ∀ (F : ClassLibrary) (own : Kind) (items : List Value), own.Over F.Has →
        element.Over F.Has → wanted.Over F.Has → (Value.array own items).conforms array = true →
        (∀ item ∈ items, item.Over F.Has ∧ item.conforms own = true) →
        ∀ item ∈ items, item.conforms element = true ∧
          item.passedAs element wanted = item.convert element wanted := by
  obtain ⟨element, wanted, step, increment, inBounds, zero, fini, t₁, u₁, t₂, u₂, t₃, items?, leads,
    found, parts, returns, makesZero, made⟩ := iteratedLoop_eq_ok built
  obtain ⟨first, others, signature, same, follows, inits⟩ := parts.signature returns made
  have array_eq := Kind.eq_arrayOf_of_element? items?
  refine ⟨element, wanted, first, others,
    ⟨array_eq, same, signature, by rwa [signature], leads, found, follows⟩,
    fun host n rest => ⟨fun conform => ?_, ?_⟩, ?_⟩
  · rw [loop_invokeExact made conform host (n + 5)]
    exact parts.perform_null makesZero rest host n
  · intro own items args conform well short enough
    have folds : h.invokeExact (runCode host (n + 6)) args =
        (WhileLoop.start init body (runCode host (n + 5)) args >>=
          items.foldlM (body.visit element wanted (runCode host (n + 3)) rest)) := by
      have takes : (variableKinds body.signature.ret).length < body.arity :=
        (List.getElem?_eq_some_iff.1 found).1
      have fits : body.arity ≤ (variableKinds body.signature.ret).length + 1 + rest.length := by
        have fits := length_le_of_isPrefixOf follows
        have lengths := conform.length_eq
        rw [signature] at lengths
        rw [List.length_drop, ← Nat.succ.inj lengths] at fits
        exact Nat.sub_le_iff_le_add'.1 fits
      have walks := parts.walks returns makesZero takes fits short well own host n
      rw [loop_invokeExact made conform host (n + 5)]
      refine (walks.perform enough).trans ?_
      unfold WhileLoop.start
      simp only [bind_assoc, pure_bind, foldlM_visit_kept]
      rfl
    refine ⟨folds, fun before item after split => ⟨fun failure fails => ⟨?_, ?_⟩, ?_⟩⟩
    · rw [fails]
      exact Value.castFails_of_passedAs fails
    · rw [folds, split]
      simp only [foldlM_visit_of_error fails, bind_assoc]
    · intro passed passes v s s' s'' e begun fails
      rw [folds, split]
      exact foldlM_visit_of_fails begun passes fails after
  · intro F own items ownOver elementOver wantedOver conforms well
    rw [array_eq] at conforms
    exact Value.passedAs_of_array ownOver elementOver wantedOver conforms well

/-- Numbers among objects are unboxed one by one, up to the first item that is none. -/
theorem iterated_loops_unboxing :
    let body := Handle.ofHost 2 ⟨.int, [.int, .int]⟩
    ∃ h t, iteratedLoop (.arrayOf .object) none body .empty = (.ok h, t) ∧
      (∀ items, Conform [.array .object items] h.signature.params) ∧
      (h.invokeExact (runCode .adding 9) [.array .object [.int 3, .int 4]] .empty).1 =
        .ok (.int 7) ∧
      (h.invokeExact (runCode .adding 9) [.array .object [.int 3, .str "x", .int 4]] .empty).1 =
        .error (.failed (.classCast "String" "int")) := by
  intro body
  have accepted : ((iteratedLoop (.arrayOf .object) none body .empty).1.toOption.map
      fun h => h.signature.params.length) = some 1 := by
    decide +kernel
  match built : iteratedLoop (.arrayOf .object) none body .empty with
  | (.error e, t) =>
    rw [built] at accepted
    cases accepted
  | (.ok h, t) =>
    rw [built] at accepted
    obtain ⟨element, wanted, first, others, ⟨array, same, signature, -, -, found, -⟩, loops, -⟩ :=
      iterated_loops built
    obtain rfl : wanted = .int := (Option.some.inj found).symm
    obtain rfl : element = .object := by
      cases array
      rfl
    have conform : ∀ items, Conform [.array .object items] h.signature.params := by
      intro items
      have one : h.signature.params.length = 1 := Option.some.inj accepted
      rw [signature] at one ⊢
      rw [List.eq_nil_of_length_eq_zero (Nat.succ.inj one)]
      refine .cons ?_ .nil
      rw [← Value.conforms_congr _ same]
      rfl
    obtain ⟨-, runs⟩ := loops .adding 3 []
    refine ⟨_, _, rfl, conform, ?_, ?_⟩
    · obtain ⟨folds, -⟩ := runs .object [.int 3, .int 4] (conform _) (by decide) (by decide)
        (by decide)
      rw [folds]
      rfl
    · obtain ⟨-, fails⟩ := runs .object [.int 3, .str "x", .int 4] (conform _) (by decide)
        (by decide) (by decide)
      rw [((fails [.int 3] (.str "x") [.int 4] rfl).1 _ rfl).2]
      rfl

end Handle
end TypedHandles
