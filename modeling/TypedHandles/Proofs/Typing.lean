import Mathlib.Data.List.Forall2
import TypedHandles.Proofs.Conversion
import TypedHandles.Handle.Construction
import TypedHandles.Kind.Builtin

/-!
Types of programs. A step is typed over the kinds of the slots so far, a program over the parameters
of a signature, and a handle when its program is typed over a signature that flows into its own.

All of it is relative to what is at hand: a typed step may call a handle that is at hand, whatever
that handle does. `Knowledge` says that whatever is at hand is typed itself, so nothing here looks
into a handle twice, and `mono` lemmas say that more at hand never hurts.
-/
namespace TypedHandles

/-- What a signature promises, over given classes. -/
structure Signature.Valid (has : ClassDef → Prop) (s : Signature) : Prop where
  wellFormed : s.WellFormed
  ret_over : s.ret.Over has
  params_over : ∀ k ∈ s.params, k.Over has

/-- Classes in which a name stands for one definition, with the classes of the library and with
whatever their members name. -/
structure ClassLibrary extends ClassFamily where
  builtin_has : ∀ c ∈ ClassDef.builtins, Has c
  field_over : ∀ {c : ClassDef} {field : String × Kind}, Has c → field ∈ c.fields →
    field.2.Over Has
  method_valid : ∀ {c : ClassDef} {method : String × Method}, Has c → method ∈ c.methods →
    method.2.signature.Valid Has

/-- The classes of the library alone: they have no members. -/
def ClassLibrary.builtin : ClassLibrary where
  toClassFamily := .builtin
  builtin_has _ mem := mem
  field_over {c field} has declared := by
    have none : ∀ c ∈ ClassDef.builtins, c.fields = [] := by decide
    rw [none c has] at declared
    cases declared
  method_valid {c method} has declared := by
    have none : ∀ c ∈ ClassDef.builtins, c.methods = [] := by decide
    rw [none c has] at declared
    cases declared

/-- What is at hand of the things that have an identity. -/
abbrev Known := Value → Prop

namespace Value

/-- Whether a value holds nothing else: it is `void`, `null`, a primitive or a text. -/
def isPlain : Value → Bool
  | array _ _ | object _ | throwable _ | handle _ | signature _ | callSite _ => false
  | _ => true

/-- Whether a value has an identity. -/
def hasIdentity : Value → Bool
  | object _ | throwable _ | handle _ | callSite _ => true
  | _ => false

/-- A value made of what is at hand. Every array in it holds items of its element kind. -/
inductive MadeOf (F : ClassLibrary) (K : Known) : Value → Prop
  | plain {v : Value} : v.isPlain = true → MadeOf F K v
  | array {element : Kind} {items : List Value} : element.Over F.Has →
      (∀ v ∈ items, v.conforms element = true) → (∀ v ∈ items, MadeOf F K v) →
      MadeOf F K (.array element items)
  | signature {s : Signature} : s.Valid F.Has → MadeOf F K (.signature s)
  | known {v : Value} : v.hasIdentity = true → K v → MadeOf F K v

end Value

/-- Values that belong to some kinds, one by one. -/
def Conform (vs : List Value) (ks : List Kind) : Prop :=
  List.Forall₂ (fun v k => v.conforms k = true) vs ks

instance (vs : List Value) (ks : List Kind) : Decidable (Conform vs ks) :=
  inferInstanceAs (Decidable (List.Forall₂ (fun v k => v.conforms k = true) vs ks))

/-- Every value of the first kind is one of the second. -/
def Kind.FlowsInto (has : ClassDef → Prop) (k l : Kind) : Prop :=
  ∀ v : Value, v.Over has → v.conforms k = true → v.conforms l = true

/-- What is called at the first signature may be called at the second. -/
structure Signature.FlowsInto (has : ClassDef → Prop) (s t : Signature) : Prop where
  params : List.Forall₂ (Kind.FlowsInto has) t.params s.params
  ret : s.ret.FlowsInto has t.ret

/-- Slots of a frame that may be passed where values of the given kinds are wanted. -/
def Feeds (has : ClassDef → Prop) (frame : List Kind) (slots : List Slot) (wanted : List Kind) :
    Prop :=
  List.Forall₂ (fun slot k => ∃ own : Kind, frame[slot]? = some own ∧ own.FlowsInto has k)
    slots wanted

/-- An action that is made of what is at hand. -/
def Action.MadeOf (F : ClassLibrary) (K : Known) : Action → Prop
  | .intrinsic (.lambda _ implementation instantiated) =>
    K (.handle implementation) ∧ instantiated.Valid F.Has
  | .construct c => F.Has c
  | _ => True

/-- All functions of a clause. -/
def LoopClause.functions (c : LoopClause) : List Handle := c.init.toList ++ c.bodyFunctions

/-- A loop over the given parameters with the given result. -/
structure LoopPlan.Typed (K : Known) (plan : LoopPlan) (outer : List Kind) (ret : Kind) :
    Prop where
  slots_eq : plan.slots = assignSlots 0 plan.clauses
  carried_eq : plan.carried = carriedKinds plan.clauses
  known : ∀ c ∈ plan.clauses, ∀ h ∈ c.functions, K (.handle h)
  init_params : ∀ c ∈ plan.clauses, ∀ init, c.init = some init → init.signature.params <+: outer
  body_params : ∀ c ∈ plan.clauses, ∀ f ∈ c.bodyFunctions,
    f.signature.params <+: plan.carried ++ outer
  init_ret : ∀ c ∈ plan.clauses, ∀ init, c.init = some init →
    init.signature.ret = c.variableKind
  ret_eq : ret = resultKind plan.clauses plan.result

/-- A step that fills a slot of a kind, on a frame of slots of given kinds. -/
inductive Step.Typed (F : ClassLibrary) (K : Known) (frame : List Kind) : Kind → Step → Prop
  | const {kind : Kind} {v : Value} : v.MadeOf F K → v.conforms kind = true →
      Typed F K frame kind (.const v)
  | convert {slot : Slot} {source target : Kind} : frame[slot]? = some source →
      source.Over F.Has → target.Over F.Has → Typed F K frame target (.convert slot source target)
  | leaf {kind : Kind} {action : Action} {args : List Slot} : action.MadeOf F K →
      Typed F K frame kind (.leaf action args)
  | call {target : Handle} {args : List Slot} : K (.handle target) →
      Feeds F.Has frame args target.signature.params →
      Typed F K frame target.signature.ret (.call target args)
  | branch {test target fallback : Handle} {args : List Slot} : K (.handle test) →
      K (.handle target) → K (.handle fallback) →
      Feeds F.Has frame args target.signature.params →
      test.signature.params <+: target.signature.params →
      fallback.signature = target.signature →
      Typed F K frame target.signature.ret (.branch test target fallback args)
  | catching {target handler : Handle} {exception : RefType} {args : List Slot} {first : Kind}
      {rest : List Kind} : K (.handle target) → K (.handle handler) →
      Feeds F.Has frame args target.signature.params →
      exception.Over F.Has → handler.signature.params = first :: rest →
      (Kind.ref exception).FlowsInto F.Has first →
      rest <+: target.signature.params → handler.signature.ret = target.signature.ret →
      Typed F K frame target.signature.ret (.catching target exception handler args)
  | finishing {target cleanup : Handle} {args : List Slot} {first : Kind} {rest : List Kind} :
      K (.handle target) → K (.handle cleanup) →
      Feeds F.Has frame args target.signature.params →
      cleanup.signature.params = first ::
        (if target.signature.ret.isVoid then [] else [target.signature.ret]) ++ rest →
      Kind.throwable.FlowsInto F.Has first → rest <+: target.signature.params →
      cleanup.signature.ret = target.signature.ret →
      Typed F K frame target.signature.ret (.finishing target cleanup args)
  | loop {plan : LoopPlan} {args : List Slot} {outer : List Kind} {ret : Kind} :
      plan.Typed K outer ret → Feeds F.Has frame args outer →
      Typed F K frame ret (.loop plan args)
  | collect {element : Kind} {args : List Slot} : element.Over F.Has →
      Feeds F.Has frame args (List.replicate args.length element) →
      Typed F K frame (.arrayOf element) (.collect element args)
  | spread {slot : Slot} {index length : Nat} {element : Kind} :
      frame[slot]? = some (.arrayOf element) → element.Over F.Has →
      Typed F K frame element (.spread slot index length)
  | dynamic {site : CallSite} {args : List Slot} : K (.callSite site) →
      Feeds F.Has frame args site.signature.params →
      Typed F K frame site.signature.ret (.dynamic site args)

/-- Bindings that run on a frame of slots of given kinds, each on the slots of the ones before. -/
def BindingsTyped (F : ClassLibrary) (K : Known) : List Kind → List Binding → Prop
  | _, [] => True
  | frame, b :: rest =>
    b.step.Typed F K frame b.kind ∧ BindingsTyped F K (frame ++ [b.kind]) rest

/-- A program over the parameters of a signature, with its result. -/
structure Program.Typed (F : ClassLibrary) (K : Known) (s : Signature) (p : Program) : Prop where
  bindings : BindingsTyped F K s.params p.bindings
  result : match p.result with
    | none => s.ret = .void
    | some slot => (s.params ++ p.bindings.map (·.kind))[slot]? = some s.ret

/-- A blueprint whose program is typed over a signature that flows into the blueprint's own. -/
structure Blueprint.Typed (F : ClassLibrary) (K : Known) (b : Blueprint) : Prop where
  valid : b.signature.Valid F.Has
  program : ∃ own : Signature, own.FlowsInto F.Has b.signature ∧
    b.program.Typed F K own

/-- A typed handle. One that collects ends with an array. -/
structure Handle.Typed (F : ClassLibrary) (K : Known) (h : Handle) : Prop where
  blueprint : Blueprint.Typed F K ⟨h.signature, h.program⟩
  trailing : h.variableArity = true →
    ∃ element, h.signature.params.getLast? = some (.arrayOf element)

/-- Whatever is at hand is typed. -/
structure Knowledge (F : ClassLibrary) (K : Known) : Prop where
  handle : ∀ h, K (.handle h) → h.Typed F K
  object : ∀ o, K (.object o) → F.Has o.cls
  throwable : ∀ t, K (.throwable t) → F.Has t.cls ∧ t.refType.isThrowable = true
  site : ∀ c, K (.callSite c) → c.signature.Valid F.Has

variable {F : ClassLibrary} {K K' : Known}

theorem Handle.Typed.valid {h : Handle} (typed : h.Typed F K) : h.signature.Valid F.Has :=
  typed.blueprint.valid

/-! Values. -/

namespace Value

theorem isPlain_of_prim? {v : Value} {p : Prim} (h : v.prim? = some p) : v.isPlain = true := by
  cases v <;> cases h <;> rfl

theorem isPlain_zero (k : Kind) : (zero k).isPlain = true := by
  match k with
  | .void => rfl
  | .ref _ => rfl
  | .prim p => cases p <;> rfl

theorem madeOf_array_iff {element : Kind} {items : List Value} :
    (array element items).MadeOf F K ↔ element.Over F.Has ∧
      (∀ v ∈ items, v.conforms element = true) ∧ ∀ v ∈ items, v.MadeOf F K := by
  constructor
  · intro h
    cases h with
    | plain h => cases h
    | array given conform made => exact ⟨given, conform, made⟩
    | known h => cases h
  · rintro ⟨given, conform, made⟩
    exact .array given conform made

theorem madeOf_signature_iff {s : Signature} : (signature s).MadeOf F K ↔ s.Valid F.Has := by
  constructor
  · intro h
    cases h with
    | plain h => cases h
    | signature valid => exact valid
    | known h => cases h
  · exact .signature

/-- A thing with an identity has to be at hand. -/
theorem madeOf_iff_of_hasIdentity {v : Value} (identity : v.hasIdentity = true) :
    v.MadeOf F K ↔ K v := by
  constructor
  · intro h
    cases h with
    | plain h => cases v <;> simp_all [isPlain, hasIdentity]
    | array => cases identity
    | signature => cases identity
    | known _ h => exact h
  · exact .known identity

theorem madeOf_handle_iff {h : Handle} : (handle h).MadeOf F K ↔ K (.handle h) :=
  madeOf_iff_of_hasIdentity rfl

theorem madeOf_object_iff {o : ObjectRef} : (object o).MadeOf F K ↔ K (.object o) :=
  madeOf_iff_of_hasIdentity rfl

theorem madeOf_throwable_iff {t : Throwable} : (throwable t).MadeOf F K ↔ K (.throwable t) :=
  madeOf_iff_of_hasIdentity rfl

theorem madeOf_callSite_iff {c : CallSite} : (callSite c).MadeOf F K ↔ K (.callSite c) :=
  madeOf_iff_of_hasIdentity rfl

theorem MadeOf.mono {v : Value} (grows : ∀ w, K w → K' w) (h : v.MadeOf F K) : v.MadeOf F K' := by
  induction h with
  | plain h => exact .plain h
  | array given conform _ ih => exact .array given conform ih
  | signature valid => exact .signature valid
  | known identity h => exact .known identity (grows _ h)

theorem over_of_madeOf {v : Value} (knowledge : Knowledge F K) (h : v.MadeOf F K) :
    v.Over F.Has := by
  intro t ht
  cases h with
  | plain h => cases v <;> cases h <;> cases ht <;> simp [RefType.Over]
  | array given =>
    cases ht
    exact RefType.over_array.2 given
  | signature =>
    cases ht
    simp [RefType.Over]
  | known identity h =>
    cases v <;> cases identity <;> cases ht
    · exact RefType.over_cls.2 (knowledge.object _ h)
    · exact RefType.over_cls.2 (knowledge.throwable _ h).1
    · simp [RefType.Over]
    · simp [RefType.Over]

theorem madeOf_of_widen {v w : Value} {q : Prim} (h : v.widen q = .ok w) : w.MadeOf F K := by
  refine .plain ?_
  cases hv : v.prim? with
  | none =>
    simp only [widen, hv] at h
    cases h
  | some p => exact isPlain_of_prim? (prim?_of_widen hv h)

theorem madeOf_of_unbox {v w : Value} {q : Prim} (h : v.unbox q = .ok w) : w.MadeOf F K :=
  .plain (isPlain_of_prim? (prim?_of_unbox h))

/-- A conversion yields the value itself or a plain one. -/
theorem madeOf_of_convert {v w : Value} {source target : Kind} (hv : v.MadeOf F K)
    (h : v.convert source target = .ok w) : w.MadeOf F K := by
  unfold convert at h
  split at h
  · cases h
    exact hv
  · split at h
    · cases h
      exact .plain rfl
    · cases h
      exact .plain (isPlain_zero _)
    · exact madeOf_of_widen h
    · split at h
      · exact madeOf_of_widen h
      · cases h
    · exact madeOf_of_unbox h
    · rw [(checkCast_eq_ok_iff.1 h).1]
      exact hv

/-- A constant that was fitted to a kind belongs to it. -/
theorem conforms_of_coerce {v w : Value} {k : Kind} (h : v.coerce k = .ok w) :
    w.conforms k = true := by
  unfold coerce at h
  split at h
  · cases h
  · exact conforms_prim_iff.2 (prim?_of_unbox h)
  · split at h
    · next p hp =>
      split at h
      · next q boxed =>
        exact (conforms_ref_of_prim? (prim?_of_widen hp h)).2 (Prim.boxTarget?_eq_some boxed).2
      · cases h
    · obtain ⟨rfl, cast⟩ := checkCast_eq_ok_iff.1 h
      exact cast

theorem madeOf_of_coerce {v w : Value} {k : Kind} (hv : v.MadeOf F K) (h : v.coerce k = .ok w) :
    w.MadeOf F K := by
  unfold coerce at h
  split at h
  · cases h
  · exact madeOf_of_unbox h
  · split at h
    · split at h
      · exact madeOf_of_widen h
      · cases h
    · rw [(checkCast_eq_ok_iff.1 h).1]
      exact hv

end Value

/-! Equality of lists of kinds, and of signatures. -/

theorem kinds_beq_iff {ks ls : List Kind} (hk : ∀ k ∈ ks, k.Over F.Has)
    (hl : ∀ l ∈ ls, l.Over F.Has) : (ks == ls) = true ↔ ks = ls := by
  induction ks generalizing ls with
  | nil => cases ls <;> simp
  | cons k ks ih =>
    cases ls with
    | nil => simp
    | cons l ls =>
      rw [List.forall_mem_cons] at hk hl
      rw [List.cons_beq_cons, Bool.and_eq_true, Kind.beq_iff hk.1 hl.1, ih hk.2 hl.2,
        List.cons.injEq]

theorem kinds_isPrefixOf_iff {ks ls : List Kind} (hk : ∀ k ∈ ks, k.Over F.Has)
    (hl : ∀ l ∈ ls, l.Over F.Has) : ks.isPrefixOf ls = true ↔ ks <+: ls := by
  induction ks generalizing ls with
  | nil => simp
  | cons k ks ih =>
    cases ls with
    | nil => simp
    | cons l ls =>
      rw [List.forall_mem_cons] at hk hl
      rw [List.isPrefixOf_cons_cons, Bool.and_eq_true, Kind.beq_iff hk.1 hl.1, ih hk.2 hl.2,
        List.cons_prefix_cons]

theorem Signature.beq_iff {s t : Signature} (hs : s.Valid F.Has) (ht : t.Valid F.Has) :
    (s == t) = true ↔ s = t := by
  show (s.ret == t.ret && s.params == t.params) = true ↔ s = t
  rw [Bool.and_eq_true, Kind.beq_iff hs.ret_over ht.ret_over,
    kinds_beq_iff hs.params_over ht.params_over]
  cases s
  cases t
  simp

/-! Kinds and signatures that flow into others. -/

theorem Kind.FlowsInto.refl {has : ClassDef → Prop} (k : Kind) : k.FlowsInto has k :=
  fun _ _ h => h

theorem Kind.FlowsInto.trans {has : ClassDef → Prop} {k l m : Kind} (first : k.FlowsInto has l)
    (second : l.FlowsInto has m) : k.FlowsInto has m :=
  fun v hv h => second v hv (first v hv h)

theorem Kind.flowsInto_of_isViewableAs {k l : Kind} (hk : k.Over F.Has) (hl : l.Over F.Has)
    (h : k.isViewableAs l true = true) : k.FlowsInto F.Has l :=
  fun _ hv => Value.conforms_of_isViewableAs hv hk hl h

theorem Signature.FlowsInto.refl {has : ClassDef → Prop} (s : Signature) : s.FlowsInto has s :=
  ⟨List.forall₂_same.2 fun k _ => .refl k, .refl s.ret⟩

theorem forall₂_trans {α : Type} {R : α → α → Prop} (trans : ∀ a b c, R a b → R b c → R a c)
    {xs ys zs : List α} (first : List.Forall₂ R xs ys) (second : List.Forall₂ R ys zs) :
    List.Forall₂ R xs zs := by
  induction first generalizing zs with
  | nil => exact second
  | cons h _ ih =>
    cases second with
    | cons h' second => exact .cons (trans _ _ _ h h') (ih second)

theorem Signature.FlowsInto.trans {has : ClassDef → Prop} {s t u : Signature}
    (first : s.FlowsInto has t) (second : t.FlowsInto has u) : s.FlowsInto has u :=
  ⟨forall₂_trans (fun _ _ _ first second => first.trans second) second.params first.params,
    first.ret.trans second.ret⟩

/-- A strict view calls for nothing that the signature itself does not take. -/
theorem Signature.flowsInto_of_isViewableAs {s t : Signature} (hs : s.Valid F.Has)
    (ht : t.Valid F.Has) (h : s.isViewableAs t true = true) : s.FlowsInto F.Has t := by
  simp only [isViewableAs, Bool.and_eq_true, beq_iff_eq, List.all_eq_true, arity] at h
  obtain ⟨⟨lengths, params⟩, ret⟩ := h
  refine ⟨List.Forall₂.flip (List.forall₂_iff_zip.2 ⟨lengths, fun {own wanted} mem => ?_⟩),
    Kind.flowsInto_of_isViewableAs hs.ret_over ht.ret_over ret⟩
  have hown := hs.params_over _ (List.of_mem_zip mem).1
  have hwanted := ht.params_over _ (List.of_mem_zip mem).2
  exact Kind.flowsInto_of_isViewableAs hwanted hown (params _ mem)

theorem Signature.Valid.replaced {has : ClassDef → Prop} {s t : Signature} {start stop : Nat}
    {kinds : List Kind} (hs : s.Valid has) (given : ∀ k ∈ kinds, k.Over has)
    (eq : t = ⟨s.ret, s.params.take start ++ kinds ++ s.params.drop stop⟩) (wf : t.WellFormed) :
    t.Valid has := by
  subst eq
  refine ⟨wf, hs.ret_over, fun k hk => ?_⟩
  simp only [List.mem_append, or_assoc] at hk
  rcases hk with hk | hk | hk
  · exact hs.params_over k (List.mem_of_mem_take hk)
  · exact given k hk
  · exact hs.params_over k (List.mem_of_mem_drop hk)

/-! Lists of values, and slots that feed them. -/

theorem Conform.length_eq {vs : List Value} {ks : List Kind} (h : Conform vs ks) :
    vs.length = ks.length :=
  List.Forall₂.length_eq h

theorem Conform.append {vs ws : List Value} {ks ls : List Kind} (h : Conform vs ks)
    (h' : Conform ws ls) : Conform (vs ++ ws) (ks ++ ls) :=
  List.rel_append h h'

theorem Conform.getElem? {vs : List Value} {ks : List Kind} (h : Conform vs ks) {i : Nat}
    {v : Value} {k : Kind} (hv : vs[i]? = some v) (hk : ks[i]? = some k) :
    v.conforms k = true := by
  obtain ⟨inside, rfl⟩ := List.getElem?_eq_some_iff.1 hv
  obtain ⟨inside', rfl⟩ := List.getElem?_eq_some_iff.1 hk
  exact List.Forall₂.get h inside inside'

/-- Values of some kinds are values of the kinds that these flow into. -/
theorem Conform.flow {has : ClassDef → Prop} {vs : List Value} {ks ls : List Kind}
    (h : Conform vs ks) (given : ∀ v ∈ vs, v.Over has)
    (flow : List.Forall₂ (Kind.FlowsInto has) ks ls) : Conform vs ls := by
  induction h generalizing ls with
  | nil =>
    cases flow
    exact .nil
  | cons head _ ih =>
    cases flow with
    | cons here rest =>
      refine .cons (here _ (given _ (by simp)) head) (ih (fun v hv => given v ?_) rest)
      exact List.mem_cons_of_mem _ hv

namespace Feeds

variable {has : ClassDef → Prop} {frame more : List Kind}

theorem append {xs ys : List Slot} {ks ls : List Kind} (h : Feeds has frame xs ks)
    (h' : Feeds has frame ys ls) : Feeds has frame (xs ++ ys) (ks ++ ls) :=
  List.rel_append h h'

theorem single {slot : Slot} {k : Kind} (h : frame[slot]? = some k) :
    Feeds has frame [slot] [k] :=
  .cons ⟨k, h, .refl k⟩ .nil

/-- A longer frame feeds what the frame feeds. -/
theorem weaken {xs : List Slot} {ks : List Kind} (h : Feeds has frame xs ks) :
    Feeds has (frame ++ more) xs ks := by
  refine List.Forall₂.imp (fun slot k => ?_) h
  rintro ⟨own, found, flows⟩
  have inside := (List.getElem?_eq_some_iff.1 found).1
  exact ⟨own, by rw [List.getElem?_append_left inside, found], flows⟩

theorem range' (frame : List Kind) {start count : Nat} (h : start + count ≤ frame.length) :
    Feeds has frame (List.range' start count) ((frame.drop start).take count) := by
  induction count generalizing start with
  | zero => exact .nil
  | succ n ih =>
    have inside : start < frame.length := by omega
    rw [List.range'_succ, List.drop_eq_getElem_cons inside, List.take_succ_cons]
    exact .cons ⟨_, List.getElem?_eq_getElem inside, .refl _⟩ (ih (by omega))

/-- Consecutive slots feed the kinds that they have. -/
theorem slots (frame : List Kind) {start stop : Nat} (h : start ≤ stop)
    (inside : stop ≤ frame.length) :
    Feeds has frame (Program.slots start stop) ((frame.drop start).take (stop - start)) :=
  range' frame (by omega)

/-- The slots of a middle part of the frame feed it. -/
theorem slots_middle (before middle after : List Kind) {start stop : Nat}
    (hstart : start = before.length) (hstop : stop = before.length + middle.length) :
    Feeds has (before ++ middle ++ after) (Program.slots start stop) middle := by
  subst hstart hstop
  have inside : before.length + middle.length ≤ (before ++ middle ++ after).length := by simp
  have h : Feeds has (before ++ middle ++ after) _ _ := slots _ (Nat.le_add_right _ _) inside
  simpa using h

/-- The first slots of the frame feed the part that they hold. -/
theorem slots_front (front after : List Kind) {stop : Nat} (hstop : stop = front.length) :
    Feeds has (front ++ after) (Program.slots 0 stop) front :=
  slots_middle [] front after rfl (by simpa using hstop)

end Feeds

/-! More at hand never hurts. -/

theorem Action.MadeOf.mono {a : Action} (grows : ∀ v, K v → K' v) (h : a.MadeOf F K) :
    a.MadeOf F K' := by
  unfold Action.MadeOf at h ⊢
  split at h
  · exact ⟨grows _ h.1, h.2⟩
  · exact h
  · trivial

theorem LoopPlan.Typed.mono {plan : LoopPlan} {outer : List Kind} {ret : Kind}
    (grows : ∀ v, K v → K' v) (h : plan.Typed K outer ret) : plan.Typed K' outer ret :=
  { h with known := fun c hc f hf => grows _ (h.known c hc f hf) }

theorem Step.Typed.mono {frame : List Kind} {kind : Kind} {step : Step}
    (grows : ∀ v, K v → K' v) (h : step.Typed F K frame kind) : step.Typed F K' frame kind := by
  cases h with
  | const made conform => exact .const (made.mono grows) conform
  | convert found source target => exact .convert found source target
  | leaf made => exact .leaf (made.mono grows)
  | call target feeds => exact .call (grows _ target) feeds
  | branch test target fallback feeds leading same =>
    exact .branch (grows _ test) (grows _ target) (grows _ fallback) feeds leading same
  | catching target handler feeds given params first leading ret =>
    exact .catching (grows _ target) (grows _ handler) feeds given params first leading ret
  | finishing target cleanup feeds params first leading ret =>
    exact .finishing (grows _ target) (grows _ cleanup) feeds params first leading ret
  | loop plan feeds => exact .loop (plan.mono grows) feeds
  | collect given feeds => exact .collect given feeds
  | spread found given => exact .spread found given
  | dynamic site feeds => exact .dynamic (grows _ site) feeds

theorem BindingsTyped.mono {frame : List Kind} {bindings : List Binding}
    (grows : ∀ v, K v → K' v) (h : BindingsTyped F K frame bindings) :
    BindingsTyped F K' frame bindings := by
  induction bindings generalizing frame with
  | nil => trivial
  | cons b rest ih => exact ⟨h.1.mono grows, ih h.2⟩

theorem Program.Typed.mono {s : Signature} {p : Program} (grows : ∀ v, K v → K' v)
    (h : p.Typed F K s) : p.Typed F K' s :=
  ⟨h.bindings.mono grows, h.result⟩

theorem Blueprint.Typed.mono {b : Blueprint} (grows : ∀ v, K v → K' v) (h : b.Typed F K) :
    b.Typed F K' := by
  obtain ⟨valid, own, flows, typed⟩ := h
  exact ⟨valid, own, flows, typed.mono grows⟩

theorem Handle.Typed.mono {h : Handle} (grows : ∀ v, K v → K' v) (typed : h.Typed F K) :
    h.Typed F K' :=
  ⟨typed.blueprint.mono grows, typed.trailing⟩

theorem bindingsTyped_append {frame : List Kind} {xs ys : List Binding} :
    BindingsTyped F K frame (xs ++ ys) ↔
      BindingsTyped F K frame xs ∧ BindingsTyped F K (frame ++ xs.map (·.kind)) ys := by
  induction xs generalizing frame with
  | nil => simp [BindingsTyped]
  | cons b rest ih => simp [BindingsTyped, ih, and_assoc]

end TypedHandles
