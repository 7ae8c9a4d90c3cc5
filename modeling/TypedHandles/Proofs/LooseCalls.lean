import TypedHandles.Proofs.Capturing
import TypedHandles.Proofs.CallSites
import TypedHandles.Proofs.VariableArity

/-!
Loose calls, exact calls and bound arguments. Whether an argument suits a parameter is decided three
times: a loose call compares kinds and converts in an adapter, a bound argument is fitted to its
parameter when it is bound, and an exact call checks what it is given.

They agree on every value and every kind (`Value.coerce_eq_ok_iff`). So a loose call is the exact
call on what the arguments are fitted to, and binding an argument first makes no difference.
-/
namespace TypedHandles

variable {F : ClassLibrary}

/-! One value. -/

namespace Value

variable {v c : Value} {k : Kind}

theorem unbox_of_prim?_eq_none (none : v.prim? = none) (q : Prim) :
    v.unbox q = .error (v.castFailure (.prim q)) :=
  unbox_error fun p prim => by cases none.symm.trans prim

/-- An instance of a type converts to another type if it is cast to it. -/
theorem convert_refType {s t : RefType} (type : v.refType? = some s) :
    v.convert (.ref s) (.ref t) = v.checkCast t := by
  by_cases same : (Kind.ref s == Kind.ref t) = true
  · have conforms : v.conforms (.ref t) = true := by
      rw [conforms_of_refType? type]
      exact RefType.isSubtypeOf_of_beq same
    rw [checkCast_of_conforms conforms, convert, if_pos same]
  · exact convert_ref v (eq_false_of_ne_true same)

/-- A value is fitted to a primitive kind exactly if its own kind converts to it and the value
does, and to the same value. -/
theorem coerce_prim_eq_ok_iff {q : Prim} (nonVoid : v ≠ .void) :
    v.coerce (.prim q) = .ok c ↔
      v.kind.isConvertibleTo (.prim q) = true ∧ v.convert v.kind (.prim q) = .ok c := by
  show v.unbox q = .ok c ↔ _
  have unboxed : v.prim? = none → ∀ s, v.kind = .ref s →
      (v.unbox q = .ok c ↔ v.kind.isConvertibleTo (.prim q) = true ∧
        v.convert v.kind (.prim q) = .ok c) := by
    intro none s kind
    have converts : v.convert v.kind (.prim q) = v.unbox q := by
      rw [kind]
      simp [convert]
    rw [converts, unbox_of_prim?_eq_none none]
    simp
  rcases v.kind_cases with rfl | rfl | ⟨p, prim, kind⟩ | ⟨s, none, -, kind⟩
  · exact absurd rfl nonVoid
  · exact unboxed rfl _ rfl
  · rw [kind, unbox, prim]
    cases widens : p.widensTo q with
    | true =>
      have convertible : (Kind.prim p).isConvertibleTo (.prim q) = true := by
        simp [Kind.isConvertibleTo, widens]
      have converts : v.convert (.prim p) (.prim q) = v.widen q := by
        by_cases same : p = q
        · rw [← same, convert_self, widen_self prim]
        · have differ : (Kind.prim p == Kind.prim q) = false := by
            simpa [BEq.beq, Kind.same] using same
          simp [convert, differ]
      simp [widens, convertible, converts]
    | false =>
      have differ : p ≠ q := by
        rintro rfl
        cases widens.symm.trans p.widensTo_refl
      have inconvertible : (Kind.prim p).isConvertibleTo (.prim q) = false := by
        simpa [Kind.isConvertibleTo, widens, BEq.beq, Kind.same] using differ
      simp [widens, inconvertible]
  · exact unboxed none s kind

theorem coerce_ref_eq_ok_iff {t : RefType} (nonVoid : v ≠ .void) :
    v.coerce (.ref t) = .ok c ↔
      v.kind.isConvertibleTo (.ref t) = true ∧ v.convert v.kind (.ref t) = .ok c := by
  unfold coerce
  rcases v.kind_cases with rfl | rfl | ⟨p, prim, kind⟩ | ⟨s, none, type, kind⟩
  · exact absurd rfl nonVoid
  · have convertible : Kind.object.isConvertibleTo (.ref t) = true := by
      simp [Kind.object, Kind.isConvertibleTo, RefType.isRelatedTo, RefType.isSubtypeOf_object]
    have converts : null.convert .object (.ref t) = .ok null := by
      unfold convert
      split
      · rfl
      · rfl
    simp [prim?, kind, convertible, converts, checkCast]
  · have differ : (Kind.prim p == Kind.ref t) = false := rfl
    rw [kind, prim]
    cases boxes : p.boxTarget? t with
    | none => simp [Kind.isConvertibleTo, differ, boxes]
    | some q => simp [Kind.isConvertibleTo, convert, differ, boxes]
  · rw [kind, none, convert_refType type]
    cases below : s.isSubtypeOf t with
    | true =>
      have convertible : (Kind.ref s).isConvertibleTo (.ref t) = true := by
        simp [Kind.isConvertibleTo, RefType.isRelatedTo, below]
      simp [convertible]
    | false =>
      have outside : v.conforms (.ref t) = false := by rw [conforms_of_refType? type, below]
      simp [checkCast_of_not_conforms outside]

/-- A constant is fitted to a kind exactly if the kind of the constant converts to it and the
constant does, and to the same value. -/
theorem coerce_eq_ok_iff (nonVoid : v ≠ .void) (given : k ≠ .void) :
    v.coerce k = .ok c ↔ v.kind.isConvertibleTo k = true ∧ v.convert v.kind k = .ok c := by
  match k with
  | .void => exact absurd rfl given
  | .prim q => exact coerce_prim_eq_ok_iff nonVoid
  | .ref t => exact coerce_ref_eq_ok_iff nonVoid

/-! Several values. -/

/-- Fits each value to the kind that stands next to it. -/
def coerceAll (items : List (Value × Kind)) : Except Failure (List Value) :=
  items.mapM fun (v, kind) => v.coerce kind

theorem mapM_cons_eq_ok_iff {α β : Type} {f : α → Except Failure β} {x : α} {xs : List α}
    {ys : List β} : (x :: xs).mapM f = .ok ys ↔
      ∃ y rest, f x = .ok y ∧ xs.mapM f = .ok rest ∧ ys = y :: rest := by
  rw [List.mapM_cons]
  cases f x with
  | error failure => simp [bind, Except.bind]
  | ok y =>
    cases xs.mapM f with
    | error failure => simp [bind, Except.bind]
    | ok rest => simp [bind, Except.bind, pure, Except.pure, eq_comm]

variable {items : List (Value × Kind)} {cs : List Value}

/-- Values are fitted to kinds exactly if their own kinds convert and they do, to the same
values. -/
theorem coerceAll_eq_ok_iff (given : ∀ item ∈ items, item.1 ≠ .void ∧ item.2 ≠ .void) :
    coerceAll items = .ok cs ↔
      (∀ item ∈ items, item.1.kind.isConvertibleTo item.2 = true) ∧ convertEach items = .ok cs := by
  induction items generalizing cs with
  | nil => simp [coerceAll, convertEach]
  | cons item items ih =>
    obtain ⟨⟨nonVoid, kind⟩, given⟩ := List.forall_mem_cons.1 given
    unfold coerceAll convertEach at ih ⊢
    simp only [mapM_cons_eq_ok_iff, ih given, coerce_eq_ok_iff nonVoid kind, List.forall_mem_cons]
    constructor
    · rintro ⟨c, rest, ⟨here, done⟩, ⟨others, dones⟩, rfl⟩
      exact ⟨⟨here, others⟩, c, rest, done, dones, rfl⟩
    · rintro ⟨⟨here, others⟩, c, rest, done, dones, rfl⟩
      exact ⟨c, rest, ⟨here, done⟩, ⟨others, dones⟩, rfl⟩

/-- Nothing but a cast fails when values are converted. -/
theorem classCast_of_convertEach {e : Failure} (failed : convertEach items = .error e) :
    ∃ found wanted, e = .classCast found wanted := by
  have ends : Ends (fun e => ∃ found wanted, e = Failure.classCast found wanted) (fun _ => True)
      (convertEach items) := by
    refine (mapM_ends fun (v, target) _ => ?_).imp fun _ _ => trivial
    show Ends _ _ (v.convert v.kind target)
    rcases convert_eq_ok_or_castFails v v.kind target with ⟨w, done⟩ | ⟨found, wanted, failed⟩
    · rw [done]
      trivial
    · rw [failed]
      exact ⟨found, wanted, rfl⟩
  exact ends.of_eq_error failed

/-- If one value is not fitted to its kind, no values come out. -/
theorem coerceAll_of_unfit {v : Value} {k : Kind} {e : Failure} (mem : (v, k) ∈ items)
    (unfit : v.coerce k = .error e) : ∃ e', coerceAll items = .error e' := by
  induction items with
  | nil => cases mem
  | cons first items ih =>
    cases done : coerceAll (first :: items) with
    | error failure => exact ⟨failure, rfl⟩
    | ok cs =>
      obtain ⟨c, rest, here, others, -⟩ := mapM_cons_eq_ok_iff.1 done
      rcases List.mem_cons.1 mem with rfl | mem
      · cases unfit.symm.trans here
      · obtain ⟨e', failed⟩ := ih mem
        cases failed.symm.trans others

theorem coerceAll_append (items others : List (Value × Kind)) :
    coerceAll (items ++ others) = (do
      let first ← coerceAll items
      let second ← coerceAll others
      return first ++ second) :=
  List.mapM_append

/-- What was fitted to kinds is of these kinds. -/
theorem conform_of_coerceAll {vs : List Value} {ks : List Kind} (lengths : vs.length = ks.length)
    (done : coerceAll (vs.zip ks) = .ok cs) : Conform cs ks := by
  induction vs generalizing ks cs with
  | nil =>
    cases List.length_eq_zero_iff.1 lengths.symm
    cases done
    exact .nil
  | cons v vs ih =>
    cases ks with
    | nil => cases lengths
    | cons k ks =>
      obtain ⟨c, rest, here, others, rfl⟩ := mapM_cons_eq_ok_iff.1 done
      exact .cons (conforms_of_coerce here) (ih (Nat.succ.inj lengths) others)

theorem over_kind {has : ClassDef → Prop} {v : Value} (inLibrary : v.Over has) :
    v.kind.Over has := by
  rcases v.kind_cases with rfl | rfl | ⟨p, -, kind⟩ | ⟨t, -, type, kind⟩
  · exact Kind.over_void
  · simp [kind, Kind.object, RefType.Over]
  · rw [kind]
    exact Kind.over_prim
  · rw [kind]
    exact Kind.over_ref.2 (inLibrary t type)

end Value

/-! Handles in order. -/

/-- A handle as a state should have it, over classes in which a name stands for one definition: its
signature is well formed, its program has a result if the signature has, and the adapter that the
table remembers of it, if any, was made from it. -/
structure Handle.InOrder (F : ClassLibrary) (s : State) (h : Handle) : Prop where
  valid : h.signature.Valid F.Has
  result : h.program.result.isNone = h.signature.ret.isVoid
  remembered : ∀ a, s.handles.adapter? h = some a → a.signature.Valid F.Has ∧
    h.signature.isConvertibleTo a.signature = true ∧
      a.program = (Blueprint.adapting h a.signature).program

/-- A table that remembers an adapter of one handle remembers it of no handle under another
number. -/
theorem HandleTable.adapter?_of_remember {t : HandleTable} {g h a b : Handle}
    (found : (t.remember g a).adapter? h = some b) :
    g.id = h.id ∧ b = a ∨ t.adapter? h = some b := by
  unfold adapter? remember at found
  dsimp only at found
  rw [Array.getElem?_setIfInBounds] at found
  split at found
  · next number =>
    split at found
    · exact .inl ⟨number, (Option.some.inj found).symm⟩
    · cases found
  · exact .inr found

namespace Handle

variable {h : Handle} {args cs : List Value} {s : State} {host : Host} {n : Nat}

/-- Values that may be passed to a handle loosely: as many as it takes, and none of them `void`. -/
structure Suits (F : ClassLibrary) (h : Handle) (args : List Value) : Prop where
  length_eq : args.length = h.arity
  nonVoid : ∀ v ∈ args, v ≠ .void
  inLibrary : ∀ v ∈ args, v.Over F.Has

namespace InOrder

variable (inOrder : h.InOrder F s)

include inOrder

theorem callerOf_valid (suits : h.Suits F args) : (h.callerOf args).Valid F.Has where
  wellFormed := (Signature.make_eq_ok_iff.1 (ofValues_eq h.signature.ret suits.nonVoid
    (suits.length_eq ▸ inOrder.valid.wellFormed.arity_le))).2
  ret_over := inOrder.valid.ret_over
  params_over := List.forall_mem_map.2 fun v mem => Value.over_kind (suits.inLibrary v mem)

/-- Nothing but an adapter to the caller is found for it. -/
theorem recalls {caller : Signature} (valid : caller.Valid F.Has) :
    s.handles.Recalls h caller := by
  intro a found same
  obtain ⟨own, convertible, program⟩ := inOrder.remembered a found
  have eq := (Signature.beq_iff own valid).1 same
  rw [eq] at convertible program
  exact ⟨eq, convertible, program⟩

/-- The table may change as long as it remembers nothing else of the handle. -/
theorem of_adapter? {t : State} (same : t.handles.adapter? h = s.handles.adapter? h) :
    h.InOrder F t :=
  ⟨inOrder.valid, inOrder.result, fun a found => inOrder.remembered a (same ▸ found)⟩

/-- Making a handle forgets nothing and remembers nothing. -/
theorem make : h.InOrder F { s with handles := ⟨s.handles.adapters.push none⟩ } :=
  inOrder.of_adapter? HandleTable.adapter?_push

/-- What is remembered of a handle when it or another one is adapted was made from it. -/
theorem asType {g : Handle} {caller : Signature} {outcome : Except Halt Handle} {t : HandleTable}
    (valid : caller.Valid F.Has) (distinct : g.id = h.id → g = h)
    (asked : g.asType caller s.handles = (outcome, t)) : h.InOrder F { s with handles := t } := by
  cases answers_of_asType asked with
  | own | kept | refused => exact inOrder
  | made _ convertible new =>
    refine ⟨inOrder.valid, inOrder.result, fun a known => ?_⟩
    rcases HandleTable.adapter?_of_remember known with ⟨number, rfl⟩ | known
    · rw [← distinct number, new]
      exact ⟨valid, convertible, rfl⟩
    · exact inOrder.make.remembered a known

end InOrder

/-- A handle that users hold is in order, in every state that they get into by values that are in
scope and typed: the scope tells when the program has a result, and the types tell what the table
remembers. -/
theorem inOrder_of_reached {point : Nat → UInt64 → Signature → Prop} {values : List Value}
    (attained : Attained point values s) (reached : Reached F values s)
    (known : Among values (.handle h)) : h.InOrder F s := by
  obtain ⟨σ, -, -, -, offered⟩ := attained.inWorld
  have fits := (σ.scope_complete.handle_iff h).1 (offered.handle h known)
  obtain ⟨K, sound, valuesMade⟩ := reached.sound
  have known' := Among.grows valuesMade _ known
  refine ⟨(sound.knowledge.handle h known').valid, fits.blueprint.program.result_isNone,
    fun a found => ?_⟩
  obtain ⟨made, convertible, program⟩ := sound.handles.adapter h a known' found
  exact ⟨(sound.knowledge.handle a made).valid, convertible, program⟩

/-! Loose calls. -/

/-- A handle converts to the caller of some arguments if their kinds convert to its parameters. -/
theorem isConvertibleTo_callerOf_iff (lengths : args.length = h.arity) :
    h.signature.isConvertibleTo (h.callerOf args) = true ↔
      ∀ item ∈ args.zip h.signature.params, item.1.kind.isConvertibleTo item.2 = true := by
  have arity : h.signature.arity = (h.callerOf args).arity := by
    simp [callerOf, Signature.arity, lengths, Handle.arity]
  have items : h.signature.params.zip (args.map Value.kind) =
      (args.zip h.signature.params).map fun item => (item.2, item.1.kind) := by
    refine List.ext_getElem (by simp [Nat.min_comm]) fun i _ _ => ?_
    simp only [List.getElem_zip, List.getElem_map]
  have pairwise : (h.signature.params.zip (h.callerOf args).params).all
      (fun pair => pair.2.isConvertibleTo pair.1) = true ↔
      ∀ item ∈ args.zip h.signature.params, item.1.kind.isConvertibleTo item.2 = true := by
    unfold callerOf
    rw [items, List.all_map, List.all_eq_true]
    rfl
  have ret : h.signature.ret.isConvertibleTo (h.callerOf args).ret = true :=
    Kind.isConvertibleTo_refl _
  unfold Signature.isConvertibleTo
  rw [Bool.or_eq_true, Bool.and_eq_true, Bool.and_eq_true, arity, beq_self_eq_true, ret, pairwise]
  constructor
  · rintro (same | ⟨⟨-, convertible⟩, -⟩)
    · have kinds := List.forall₂_iff_zip.1 (kinds_of_beq same)
      intro item mem
      have equal : (item.1.kind == item.2) = true := kinds.2 mem
      simp [Kind.isConvertibleTo, equal]
    · exact convertible
  · exact fun convertible => .inr ⟨⟨rfl, convertible⟩, rfl⟩

variable (inOrder : h.InOrder F s) (suits : h.Suits F args)

include inOrder suits

theorem items_given : ∀ item ∈ args.zip h.signature.params, item.1 ≠ .void ∧ item.2 ≠ .void :=
  fun _ mem => ⟨suits.nonVoid _ (List.of_mem_zip mem).1,
    inOrder.valid.wellFormed.no_void _ (List.of_mem_zip mem).2⟩

/-- Arguments that are fitted to the parameters are passed on as what they are fitted to. -/
theorem loosely_of_coerceAll (done : Value.coerceAll (args.zip h.signature.params) = .ok cs) :
    h.loosely (runCode host (n + h.layersFor (h.callerOf args))) args =
      (runCode host n).call h cs := by
  obtain ⟨convertible, converted⟩ := (Value.coerceAll_eq_ok_iff (items_given inOrder suits)).1 done
  have arity : (h.callerOf args).arity = h.arity := (List.length_map _).trans suits.length_eq
  unfold loosely
  rw [if_pos ((isConvertibleTo_callerOf_iff suits.length_eq).2 convertible)]
  unfold layersFor
  cases asIs : h.servesAsIs (h.callerOf args) with
  | true =>
    rw [convertEach_of_servesAsIs suits.nonVoid asIs] at converted
    cases converted
    exact runCode_codeFor_of_asIs asIs (List.length_map _).symm arity host n
  | false =>
    show runCode host (n + 1) _ args = _
    rw [runCode_codeFor_of_not_servesAsIs suits.length_eq n asIs, converted]
    exact funext fun t => congrFun (h.call_kept inOrder.result host n cs) t

/-- Arguments of which one is not fitted to its parameter are not passed on. -/
theorem loosely_of_not_coerceAll {e : Failure}
    (failed : Value.coerceAll (args.zip h.signature.params) = .error e) (host : Host) (n : Nat) :
    ∃ failure : Failure, (failure = .signatureMismatch (h.callerOf args) h.signature ∨
        ∃ found wanted, failure = .classCast found wanted) ∧
      ∀ t, h.loosely (runCode host (n + 1)) args t = (.error (.failed failure), t) := by
  unfold loosely
  cases convertible : h.signature.isConvertibleTo (h.callerOf args) with
  | false => exact ⟨_, .inl rfl, fun _ => rfl⟩
  | true =>
    have kinds := (isConvertibleTo_callerOf_iff suits.length_eq).1 convertible
    cases converted : Value.convertEach (args.zip h.signature.params) with
    | ok cs =>
      cases failed.symm.trans
        ((Value.coerceAll_eq_ok_iff (items_given inOrder suits)).2 ⟨kinds, converted⟩)
    | error failure =>
      refine ⟨failure, .inr (Value.classCast_of_convertEach converted), fun t => ?_⟩
      have adapted : h.servesAsIs (h.callerOf args) = false := by
        rw [← Bool.not_eq_true]
        intro asIs
        cases converted.symm.trans (convertEach_of_servesAsIs suits.nonVoid asIs)
      rw [if_pos rfl, runCode_codeFor_of_not_servesAsIs suits.length_eq n adapted, converted]
      rfl

omit inOrder suits

/-- What a loose call of a handle comes to, by what its arguments are fitted to. The table of
handles gets the adapter to the caller and nothing else. -/
structure CallsCoerced (host : Host) (n : Nat) (h : Handle) (args : List Value) (s : State) :
    Prop where
  /-- Arguments that are fitted to the parameters are called exactly as what they are fitted to. -/
  coerced : ∀ cs, Value.coerceAll (args.zip h.signature.params) = .ok cs →
    Conform cs h.signature.params ∧
      h.invoke (runCode host (n + h.layersFor (h.callerOf args))) args s =
        h.invokeExact (runCode host n) cs
          { s with handles := (h.asType (h.callerOf args) s.handles).2 }
  /-- Arguments that belong to the parameters are fitted to them as they are. -/
  conforming : Conform args h.signature.params →
    Value.coerceAll (args.zip h.signature.params) = .ok args
  /-- Arguments of which one is not fitted to its parameter are refused, and nothing runs. -/
  refused : ∀ item ∈ args.zip h.signature.params, ∀ e, item.1.coerce item.2 = .error e →
    ∃ failure : Failure, (failure = .signatureMismatch (h.callerOf args) h.signature ∨
        ∃ found wanted, failure = .classCast found wanted) ∧
      h.invoke (runCode host (n + 1)) args s = (.error (.failed failure),
        { s with handles := (h.asType (h.callerOf args) s.handles).2 })

/-- A loose call of a handle of fixed arity goes by what its arguments are fitted to. -/
theorem invoke_callsCoerced (inOrder : h.InOrder F s) (fixed : h.variableArity = false)
    (suits : h.Suits F args) (host : Host) (n : Nat) : h.CallsCoerced host n args s := by
  have limit : args.length ≤ Signature.maxArity :=
    suits.length_eq ▸ inOrder.valid.wellFormed.arity_le
  have recalls := inOrder.recalls (inOrder.callerOf_valid suits)
  have invoked : ∀ run : Runner, h.invoke run args s = _ := fun run =>
    invoke_of_fixed fixed suits.length_eq suits.nonVoid limit recalls
  refine ⟨fun cs done => ?_, Value.mapM_coerce_of_conform inOrder.valid.wellFormed.no_void,
    fun item mem e unfit => ?_⟩
  · have conform := Value.conform_of_coerceAll suits.length_eq done
    refine ⟨conform, ?_⟩
    rw [invoked, loosely_of_coerceAll inOrder suits done, h.invokeExact_of_conform _ conform]
  · obtain ⟨e', failed⟩ := Value.coerceAll_of_unfit mem unfit
    obtain ⟨failure, why, refused⟩ := loosely_of_not_coerceAll inOrder suits failed host n
    exact ⟨failure, why, by rw [invoked, refused]⟩

end Handle

/-! One bound argument. -/

namespace Blueprint

/-- A handle with one parameter bound to a value. -/
def binding (h : Handle) (pos : Nat) (kind : Kind) (c : Value) : Blueprint :=
  let rest := h.signature.params.take pos ++ h.signature.params.drop (pos + 1)
  ⟨⟨h.signature.ret, rest⟩, .calling rest.length [⟨kind, .const c⟩] h
    (Program.slots 0 pos ++ [rest.length] ++ Program.slots pos rest.length)⟩

variable {h : Handle} {pos : Nat} {kind : Kind} {v c : Value}

/-- A value is bound to a parameter if it is fitted to it. -/
theorem insertArguments_single (valid : h.signature.WellFormed)
    (here : h.signature.params[pos]? = some kind) :
    insertArguments h pos [v] =
      Checked.ofExcept (v.coerce kind) >>= fun c => .ok (binding h pos kind c) := by
  have inside : pos < h.signature.params.length := (List.getElem?_eq_some_iff.1 here).1
  have positions : requirePositions h.signature pos 1 = .ok () := by
    unfold requirePositions Signature.arity
    rw [if_neg (by omega)]
  have kinds : slice? h.signature.params pos (pos + 1) = some [kind] := by
    have found := (List.getElem?_eq_some_iff.1 here).2
    unfold slice?
    rw [if_pos (by omega), Nat.add_sub_cancel_left, List.drop_eq_getElem_cons inside, found]
    rfl
  have rest : h.signature.dropParams pos (pos + 1) =
      .ok ⟨h.signature.ret, h.signature.params.take pos ++ h.signature.params.drop (pos + 1)⟩ :=
    valid.dropParams (Nat.le_succ pos) inside
  have bound : [(v, kind)].mapM (fun (v, kind) => v.coerce kind) =
      (do let c ← v.coerce kind; return [c]) := by
    simp
  unfold insertArguments
  simp only [List.length_singleton, positions, kinds]
  show (Checked.ofExcept ([(v, kind)].mapM fun (v, kind) => v.coerce kind) >>= _) = _
  rw [bound]
  cases v.coerce kind with
  | error failure => rfl
  | ok c =>
    have slot : ∀ n, Program.slots n (n + 1) = [n] := by simp [Program.slots]
    show (Checked.ofExcept (h.signature.dropParams pos (pos + 1)) >>= _) = _
    rw [rest]
    show (Except.ok (Blueprint.mk _ (.calling _ _ h (_ ++ Program.slots _ (_ + 1) ++ _))) :
      Checked Blueprint) = _
    rw [slot]
    rfl

/-- A handle with a bound argument calls the handle with this argument in its place. -/
theorem binding_perform (run : Runner) (limit : Nat) {args : List Value} (le : pos ≤ args.length)
    (lengths : args.length = (binding h pos kind c).signature.arity) :
    (binding h pos kind c).program.perform run limit args = (do
      let result ← run.call h (args.take pos ++ c :: args.drop pos)
      return h.signature.ret.kept result) := by
  have rest : (h.signature.params.take pos ++ h.signature.params.drop (pos + 1)).length =
      args.length := lengths.symm
  have front : Carries args (Program.slots 0 pos) (args.take pos) := Carries.slots le
  have back : Carries args (Program.slots pos args.length) (args.drop pos) := by
    have carries : Carries args (Program.slots pos args.length) _ := Carries.slots (Nat.le_refl _)
    rwa [List.take_of_length_le (by simp)] at carries
  have computes : Program.Computes run limit args [⟨kind, .const c⟩]
      (Program.slots 0 pos ++ [args.length] ++ Program.slots pos args.length)
      (.ok (args.take pos ++ c :: args.drop pos)) := by
    refine ⟨[c], rfl, rfl, ?_⟩
    rw [List.append_assoc]
    refine List.rel_append (front.weaken _) (.cons ?_ (back.weaken _))
    simp
  unfold binding
  dsimp only
  rw [rest]
  exact Program.calling_perform computes h

end Blueprint

namespace Handle

variable {h : Handle} {pos : Nat} {kind : Kind} {v c : Value} {args cs : List Value} {s : State}
  {host : Host}

/-- A handle with one parameter bound to a value, under a number. -/
def bound (h : Handle) (pos : Nat) (kind : Kind) (c : Value) (id : Nat) : Handle :=
  ⟨id, (Blueprint.binding h pos kind c).signature, (Blueprint.binding h pos kind c).program, false⟩

theorem bindArgument_build (valid : h.signature.WellFormed)
    (here : h.signature.params[pos]? = some kind) (v : Value) (t : HandleTable) :
    (Construction.bindArgument h pos v).build t =
      match v.coerce kind with
      | .ok c => (.ok (h.bound pos kind c t.adapters.size), ⟨t.adapters.push none⟩)
      | .error failure => (.error (.failed failure), t) := by
  show Build.allocate (Blueprint.insertArguments h pos [v]) t = _
  rw [Blueprint.insertArguments_single valid here]
  cases v.coerce kind with
  | error failure => rfl
  | ok c => rfl

/-- The arguments of a handle with one of them bound, and the bound one in its place. -/
def inserted (pos : Nat) (v : Value) (args : List Value) : List Value :=
  args.take pos ++ v :: args.drop pos

theorem bound_arity (here : h.signature.params[pos]? = some kind) (c : Value) (id : Nat) :
    (h.bound pos kind c id).arity + 1 = h.arity ∧ pos ≤ (h.bound pos kind c id).arity := by
  have inside : pos < h.signature.params.length := (List.getElem?_eq_some_iff.1 here).1
  simp only [bound, Blueprint.binding, arity, List.length_append, List.length_take,
    List.length_drop]
  omega

/-- A call of a handle with a bound argument is a call of the handle. -/
theorem bound_call (result : h.program.result.isNone = h.signature.ret.isVoid)
    (here : h.signature.params[pos]? = some kind) (n id : Nat)
    (lengths : args.length = (h.bound pos kind c id).arity) :
    (runCode host (n + 1)).call (h.bound pos kind c id) args =
      (runCode host n).call h (inserted pos c args) := by
  have le : pos ≤ args.length := lengths ▸ (bound_arity here c id).2
  refine (Blueprint.binding_perform (runCode host n) n le lengths).trans ?_
  exact h.call_kept result host n (inserted pos c args)

/-- A new handle with a bound argument is in order, and so is the handle still. -/
theorem bound_inOrder (inOrder : h.InOrder F s) :
    (h.bound pos kind c s.handles.adapters.size).InOrder F
      { s with handles := ⟨s.handles.adapters.push none⟩ } where
  valid := {
    wellFormed := {
      arity_le := by
        have limit := inOrder.valid.wellFormed.arity_le
        simp only [bound, Blueprint.binding, List.length_append, List.length_take, List.length_drop]
        omega
      no_void := by
        intro k mem
        rcases List.mem_append.1 mem with mem | mem
        · exact inOrder.valid.wellFormed.no_void k (List.mem_of_mem_take mem)
        · exact inOrder.valid.wellFormed.no_void k (List.mem_of_mem_drop mem) }
    ret_over := inOrder.valid.ret_over
    params_over := by
      intro k mem
      rcases List.mem_append.1 mem with mem | mem
      · exact inOrder.valid.params_over k (List.mem_of_mem_take mem)
      · exact inOrder.valid.params_over k (List.mem_of_mem_drop mem) }
  result := resultSlot_isNone _ _
  remembered := by
    intro a found
    simp [HandleTable.adapter?, bound] at found

/-- Arguments and the one in their midst are fitted to the parameters each by itself. -/
theorem coerceAll_inserted (here : h.signature.params[pos]? = some kind)
    (fitted : v.coerce kind = .ok c) {id : Nat}
    (lengths : args.length = (h.bound pos kind c id).arity)
    (done : Value.coerceAll (args.zip (h.bound pos kind c id).signature.params) = .ok cs) :
    Value.coerceAll ((inserted pos v args).zip h.signature.params) = .ok (inserted pos c cs) := by
  obtain ⟨inside, found⟩ := List.getElem?_eq_some_iff.1 here
  have le : pos ≤ args.length := lengths ▸ (bound_arity here c id).2
  let front := (args.take pos).zip (h.signature.params.take pos)
  let back := (args.drop pos).zip (h.signature.params.drop (pos + 1))
  have fronts : (args.take pos).length = (h.signature.params.take pos).length := by
    simp only [List.length_take]
    omega
  have rest : args.zip (h.bound pos kind c id).signature.params = front ++ back := by
    rw [← List.zip_append fronts, List.take_append_drop]
    rfl
  have params : h.signature.params.take pos ++ kind :: h.signature.params.drop (pos + 1) =
      h.signature.params := by
    rw [← found, ← List.drop_eq_getElem_cons inside, List.take_append_drop]
  have whole : (inserted pos v args).zip h.signature.params = front ++ (v, kind) :: back := by
    rw [← params]
    exact List.zip_append fronts
  rw [rest, Value.coerceAll_append] at done
  rw [whole, Value.coerceAll_append]
  cases first : Value.coerceAll front with
  | error failure =>
    rw [first] at done
    cases done
  | ok cs₁ =>
    cases second : Value.coerceAll back with
    | error failure =>
      rw [first, second] at done
      cases done
    | ok cs₂ =>
      rw [first, second] at done
      cases done
      have count : cs₁.length = pos := by
        rw [(Value.conform_of_coerceAll fronts first).length_eq, List.length_take]
        omega
      have middle : Value.coerceAll ((v, kind) :: back) = .ok (c :: cs₂) :=
        Value.mapM_cons_eq_ok_iff.2 ⟨c, cs₂, fitted, second, rfl⟩
      rw [middle, inserted, List.take_left' count, List.drop_left' count]
      rfl

theorem suits_inserted (here : h.signature.params[pos]? = some kind) (nonVoid : v ≠ .void)
    (inLibrary : v.Over F.Has) {id : Nat} (suits : (h.bound pos kind c id).Suits F args) :
    h.Suits F (inserted pos v args) := by
  have all : ∀ w ∈ inserted pos v args, w = v ∨ w ∈ args := by
    intro w mem
    rcases List.mem_append.1 mem with mem | mem
    · exact .inr (List.mem_of_mem_take mem)
    · exact (List.mem_cons.1 mem).imp_right List.mem_of_mem_drop
  refine ⟨?_, fun w mem => ?_, fun w mem => ?_⟩
  · have count := (bound_arity here c id).1
    rw [← suits.length_eq] at count
    simp only [inserted, List.length_append, List.length_cons, List.length_take, List.length_drop]
    omega
  · rcases all w mem with rfl | mem
    · exact nonVoid
    · exact suits.nonVoid w mem
  · rcases all w mem with rfl | mem
    · exact inLibrary
    · exact suits.inLibrary w mem

/-- What it comes to that a parameter of a handle is bound to a value. -/
structure Binds (F : ClassLibrary) (h : Handle) (pos : Nat) (kind : Kind) (v : Value) : Prop where
  /-- The value is bound if it is fitted to the parameter. -/
  succeeds : ∀ t, (∃ b t', (Construction.bindArgument h pos v).build t = (.ok b, t')) ↔
    ∃ c, v.coerce kind = .ok c
  /-- The new handle is in order, and the handle stays in order. -/
  inOrder : ∀ {s : State} {b : Handle} {t : HandleTable}, h.InOrder F s →
    (Construction.bindArgument h pos v).build s.handles = (.ok b, t) → b.variableArity = false ∧
      b.InOrder F { s with handles := t } ∧ h.InOrder F { s with handles := t }
  /-- From any state later on, a loose call of the new handle on arguments that are fitted to its
  parameters is the same run as one of the handle, with the value among the arguments. -/
  sameRun : ∀ {t t' : HandleTable} {b : Handle} {s : State} {args cs : List Value},
    (Construction.bindArgument h pos v).build t = (.ok b, t') → h.InOrder F s → b.InOrder F s →
    b.Suits F args → Value.coerceAll (args.zip b.signature.params) = .ok cs →
    ∀ (host : Host) (n : Nat), Exec.SameRun (runCode host n) s
      (b.invoke (runCode host (n + 1 + b.layersFor (b.callerOf args))) args)
      (h.invoke (runCode host (n + h.layersFor (h.callerOf (inserted pos v args))))
        (inserted pos v args))

/-- The handle that comes out of a binding. -/
theorem eq_bound_of_build (valid : h.signature.WellFormed)
    (here : h.signature.params[pos]? = some kind) {t t' : HandleTable} {b : Handle}
    (built : (Construction.bindArgument h pos v).build t = (.ok b, t')) :
    ∃ c, v.coerce kind = .ok c ∧ b = h.bound pos kind c t.adapters.size ∧
      t' = ⟨t.adapters.push none⟩ := by
  rw [bindArgument_build valid here] at built
  cases fitted : v.coerce kind with
  | error failure =>
    rw [fitted] at built
    cases built
  | ok c =>
    rw [fitted] at built
    cases built
    exact ⟨c, rfl, rfl, rfl⟩

/-- A value is bound as it would be passed. -/
theorem bindArgument_binds (valid : h.signature.Valid F.Has) (fixed : h.variableArity = false)
    (here : h.signature.params[pos]? = some kind) (nonVoid : v ≠ .void)
    (inLibrary : v.Over F.Has) :
    h.Binds F pos kind v where
  succeeds t := by
    constructor
    · rintro ⟨b, t', built⟩
      obtain ⟨c, fitted, -⟩ := eq_bound_of_build valid.wellFormed here built
      exact ⟨c, fitted⟩
    · rintro ⟨c, fitted⟩
      rw [bindArgument_build valid.wellFormed here, fitted]
      exact ⟨_, _, rfl⟩
  inOrder := by
    intro s b t inOrder built
    obtain ⟨c, -, rfl, rfl⟩ := eq_bound_of_build valid.wellFormed here built
    exact ⟨rfl, bound_inOrder inOrder, inOrder.make⟩
  sameRun := by
    intro t t' b s args cs built inOrder inOrder' suits done host n
    obtain ⟨c, fitted, rfl, -⟩ := eq_bound_of_build valid.wellFormed here built
    have own := suits_inserted here nonVoid inLibrary suits
    obtain ⟨conform, first⟩ := (invoke_callsCoerced inOrder' rfl suits host (n + 1)).coerced cs done
    obtain ⟨conform', second⟩ := (invoke_callsCoerced inOrder fixed own host n).coerced _
      (coerceAll_inserted here fitted suits.length_eq done)
    rw [invokeExact_of_conform _ conform,
      bound_call inOrder.result here n _ conform.length_eq] at first
    rw [h.invokeExact_of_conform _ conform'] at second
    exact ⟨.ok (.program h.signature h.program, inserted pos c cs), _, _, first, second⟩

/-- Loose calls, exact calls and bound arguments agree on what suits a parameter. -/
theorem loose_agreement (inOrder : h.InOrder F s) (fixed : h.variableArity = false) :
    (∀ args, h.Suits F args → ∀ host n, h.CallsCoerced host n args s) ∧
    ∀ pos kind v, h.signature.params[pos]? = some kind → v ≠ .void → v.Over F.Has →
      h.Binds F pos kind v :=
  ⟨fun _ suits host n => invoke_callsCoerced inOrder fixed suits host n,
    fun _ _ _ here nonVoid inLibrary =>
      bindArgument_binds inOrder.valid fixed here nonVoid inLibrary⟩

/-- An `int` is widened and a `byte` is boxed, in a loose call and by a binding. -/
theorem loose_agreement_widened :
    ∃ (values : List Value) (s : State) (h b : Handle) (t : HandleTable),
      Attained (fun _ _ _ => True) values s ∧ Among values (.handle h) ∧
      h.signature = ⟨.prim .long, [.prim .long, .object]⟩ ∧
      (h.invoke (runCode .echo 4) [.int 1, .byte 2] s).1 = .ok (.long 1) ∧
      h.invoke (runCode .echo 4) [.int 1, .byte 2] s =
        h.invokeExact (runCode .echo 3) [.long 1, .byte 2] { s with
          handles := (h.asType (h.callerOf [.int 1, .byte 2]) s.handles).2 } ∧
      (Construction.bindArgument h 1 (.byte 2)).build s.handles = (.ok b, t) ∧
      Exec.SameRun (runCode .echo 3) { s with handles := t }
        (b.invoke (runCode .echo 5) [.int 1])
        (h.invoke (runCode .echo 4) [.int 1, .byte 2]) := by
  have wf : Signature.WellFormed ⟨.prim .long, [.prim .long, .object]⟩ :=
    ⟨by decide, by simp [Kind.object]⟩
  have start : Attained (fun _ _ _ => True) [] .empty := .refl
  have made := start.perform
    (.construct (.ofAction ⟨.prim .long, [.prim .long, .object]⟩ (.host ⟨0, "echo"⟩))) 1
    (Host.idle_inScope _) ⟨wf, trivial⟩
  have valid : Signature.Valid ClassLibrary.builtin.Has ⟨.prim .long, [.prim .long, .object]⟩ :=
    ⟨wf, Kind.over_prim, by simp [Kind.object, RefType.Over]⟩
  have reached := Reached.start.perform
    (.construct (.ofAction ⟨.prim .long, [.prim .long, .object]⟩ (.host ⟨0, "echo"⟩))) 1
    (Host.idle_uses .builtin _) ⟨valid, trivial⟩
  have plain : ∀ v ∈ [Value.int 1, .byte 2], v.Over ClassLibrary.builtin.Has := by
    simp [Value.Over, Value.refType?, RefType.Over]
  have inOrder := inOrder_of_reached made reached (Among.last rfl)
  obtain ⟨calls, binds⟩ := loose_agreement inOrder rfl
  have called := calls [.int 1, .byte 2] ⟨rfl, by simp, plain⟩ .echo 3
  have bind := binds 1 .object (.byte 2) rfl (by simp) (plain _ (by simp))
  obtain ⟨fixed, bound, kept⟩ := bind.inOrder inOrder rfl
  refine ⟨_, _, _, _, _, made, Among.last rfl, rfl, rfl, (called.coerced _ rfl).2, rfl, ?_⟩
  exact bind.sameRun rfl kept bound ⟨rfl, by simp, fun v mem => plain v (by simp_all)⟩ rfl .echo 3

end Handle
end TypedHandles
