import TypedHandles.Proofs.ControlTyping

/-!
Building handles keeps what is known of handles: whatever a construction makes is typed, and so is
whatever the table of handles remembers.

`Build.Safe` is the triple of such computations. Its rules follow the monad, and there is one lemma
for each way to make a handle.
-/
namespace TypedHandles

variable {F : ClassLibrary} {K K' : Known}

/-! Running one computation after another. -/

section

variable {σ α β : Type} {x : ExceptT Halt (StateM σ) α} {f : α → ExceptT Halt (StateM σ) β}
  {s t : σ}

theorem bind_of_ok {a : α} (h : x s = (.ok a, t)) : (x >>= f) s = f a t := by
  simp only [Bind.bind, ExceptT.bind, ExceptT.mk, StateT.bind, h]
  rfl

theorem bind_of_error {e : Halt} (h : x s = (.error e, t)) : (x >>= f) s = (.error e, t) := by
  simp only [Bind.bind, ExceptT.bind, ExceptT.mk, StateT.bind, h]
  rfl

theorem bind_get {g : σ → ExceptT Halt (StateM σ) α} : (get >>= g) s = g s s := rfl

/-- What follows two computations that do the same in a state does the same. -/
theorem bind_congr_at {y : ExceptT Halt (StateM σ) α} (h : x s = y s) :
    (x >>= f) s = (y >>= f) s := by
  simp only [Bind.bind, ExceptT.bind, ExceptT.mk, StateT.bind, h]

/-- Both parts of a computation that succeeds have succeeded. -/
theorem bind_eq_ok {u : σ} {b : β} (h : (x >>= f) s = (.ok b, u)) :
    ∃ a t, x s = (.ok a, t) ∧ f a t = (.ok b, u) := by
  match result : x s with
  | (.ok a, t) =>
    rw [bind_of_ok result] at h
    exact ⟨a, t, rfl, h⟩
  | (.error e, t) =>
    rw [bind_of_error result] at h
    cases h

end

/-- More is at hand. -/
def Known.Grows (K K' : Known) : Prop := ∀ v, K v → K' v

theorem Known.Grows.refl (K : Known) : K.Grows K := fun _ h => h

theorem Known.Grows.trans {K K' K'' : Known} (first : K.Grows K') (second : K'.Grows K'') :
    K.Grows K'' :=
  fun v h => second v (first v h)

/-- More is at hand, but only handles. -/
structure Known.GrowsByHandles (K K' : Known) : Prop where
  grows : K.Grows K'
  handle : ∀ v, K' v → K v ∨ ∃ h, v = .handle h

/-- The table of handles knows the handles at hand apart, and remembers for each an adapter of it
that is at hand as well. -/
structure HandleTable.Sound (K : Known) (t : HandleTable) : Prop where
  inside : ∀ h, K (.handle h) → h.id < t.adapters.size
  unique : ∀ h h', K (.handle h) → K (.handle h') → h.id = h'.id → h = h'
  adapter : ∀ h a, K (.handle h) → t.adapter? h = some a → K (.handle a) ∧
    h.signature.isConvertibleTo a.signature = true ∧
      a.program = (Blueprint.adapting h a.signature).program

namespace HandleTable

variable {t : HandleTable} {g h a : Handle}

theorem size_remember : (t.remember h a).adapters.size = t.adapters.size :=
  Array.size_setIfInBounds

/-- What is remembered of a handle that has a number is found again. -/
theorem adapter?_remember (inside : h.id < t.adapters.size) :
    (t.remember h a).adapter? h = some a := by
  simp [adapter?, remember, inside]

/-- What is remembered of a handle makes no difference to another one. -/
theorem adapter?_remember_of_ne (other : g.id ≠ h.id) :
    (t.remember g a).adapter? h = t.adapter? h := by
  simp [adapter?, remember, other]

/-- A new handle makes no difference either. -/
theorem adapter?_push : adapter? ⟨t.adapters.push none⟩ h = t.adapter? h := by
  unfold adapter?
  dsimp only
  rw [Array.getElem?_push]
  split
  · next last =>
    rw [last, Array.getElem?_size]
    rfl
  · rfl

end HandleTable

namespace Known.GrowsByHandles

theorem refl (K : Known) : K.GrowsByHandles K := ⟨fun _ h => h, fun _ h => .inl h⟩

theorem trans {K K' K'' : Known} (first : K.GrowsByHandles K') (second : K'.GrowsByHandles K'') :
    K.GrowsByHandles K'' := by
  refine ⟨fun v h => second.grows v (first.grows v h), fun v h => ?_⟩
  rcases second.handle v h with h | h
  · exact first.handle v h
  · exact .inr h

end Known.GrowsByHandles

/-- A computation that makes handles, on a sound table: it keeps the table sound, what it returns is
as `Q` says, and it fails for static reasons only. -/
def Build.Safe {α : Type} (F : ClassLibrary) (K : Known) (x : Build α) (Q : Known → α → Prop) :
    Prop :=
  ∀ t : HandleTable, Knowledge F K → t.Sound K →
    ∃ K', K.GrowsByHandles K' ∧ Knowledge F K' ∧ (x t).2.Sound K' ∧
      Ends Halt.IsStatic (Q K') (x t).1

namespace Build

variable {α β : Type} {P Q : Known → α → Prop} {R : Known → β → Prop}

namespace Safe

theorem pure {a : α} (h : Q K a) : Safe F K (Pure.pure a) Q :=
  fun _ knowledge sound => ⟨K, .refl K, knowledge, sound, h⟩

theorem bind {x : Build α} {f : α → Build β} (hx : Safe F K x P)
    (hf : ∀ K' a, K.Grows K' → Knowledge F K' → P K' a → Safe F K' (f a) R) :
    Safe F K (x >>= f) R := by
  intro t knowledge sound
  obtain ⟨K₁, grows₁, knowledge₁, sound₁, ends₁⟩ := hx t knowledge sound
  cases result : x t with
  | mk outcome u =>
    rw [result] at sound₁ ends₁
    cases outcome with
    | error e =>
      rw [bind_of_error result]
      exact ⟨K₁, grows₁, knowledge₁, sound₁, ends₁⟩
    | ok a =>
      rw [bind_of_ok result]
      obtain ⟨K₂, grows₂, rest⟩ := hf K₁ a grows₁.grows knowledge₁ ends₁ u knowledge₁ sound₁
      exact ⟨K₂, grows₁.trans grows₂, rest⟩

theorem imp {x : Build α} (hx : Safe F K x P)
    (weaker : ∀ K' a, K.Grows K' → P K' a → Q K' a) : Safe F K x Q := by
  intro t knowledge sound
  obtain ⟨K', grows, knowledge', sound', ends⟩ := hx t knowledge sound
  exact ⟨K', grows, knowledge', sound', ends.imp fun a => weaker K' a grows.grows⟩

/-- What is at hand is typed, whatever is made of it. -/
theorem ofKnowledge {x : Build α} (h : Knowledge F K → Safe F K x Q) : Safe F K x Q :=
  fun t knowledge => h knowledge t knowledge

theorem ofChecked {x : Checked α} (h : Ends Halt.IsStatic (Q K) x) :
    Safe F K (Build.ofChecked x) Q :=
  fun _ knowledge sound => ⟨K, .refl K, knowledge, sound, h⟩

theorem refuse {failure : Failure} (h : failure.isStatic = true) :
    Safe F K (Build.refuse failure : Build α) Q :=
  ofChecked h

/-- Nothing is made by a computation without state. -/
theorem bindChecked {x : Checked α} {C : α → Prop} {f : α → Build β} (hx : Ends Halt.IsStatic C x)
    (hf : ∀ a, C a → Safe F K (f a) R) : Safe F K (Build.ofChecked x >>= f) R := by
  intro t knowledge sound
  cases x with
  | ok a => exact hf a hx t knowledge sound
  | error e => exact ⟨K, .refl K, knowledge, sound, hx⟩

/-- A check in front of a computation: nothing follows where it refuses. -/
theorem check {c : Prop} [Decidable c] {failure : Failure} {next : Unit → Build α}
    (refused : failure.isStatic = true) (passed : ¬ c → Safe F K (next ()) Q) :
    Safe F K (if c then (do let r ← Build.refuse failure; next r) else next ()) Q := by
  by_cases h : c
  · rw [if_pos h]
    exact fun _ knowledge sound => ⟨K, .refl K, knowledge, sound, refused⟩
  · rw [if_neg h]
    exact passed h

theorem get : Safe F K (MonadState.get : Build HandleTable) fun K' t => t.Sound K' :=
  fun _ knowledge sound => ⟨K, .refl K, knowledge, sound, sound⟩

end Safe
end Build

/-- A new handle is at hand next to what was. -/
theorem Handle.make_safe {s : Signature} {p : Program} {variableArity : Bool}
    (typed : ∀ id, Handle.Typed F K ⟨id, s, p, variableArity⟩) :
    Build.Safe F K (Handle.make s p variableArity) fun K' h =>
      K' (.handle h) ∧ h.signature = s ∧ h.program = p ∧ h.variableArity = variableArity := by
  intro t knowledge sound
  let new : Handle := ⟨t.adapters.size, s, p, variableArity⟩
  let K' : Known := fun v => K v ∨ v = .handle new
  have grows : K.Grows K' := fun _ h => .inl h
  have cases : ∀ h, K' (.handle h) → K (.handle h) ∨ h = new := by
    intro h known
    rcases known with known | eq
    · exact .inl known
    · cases eq
      exact .inr rfl
  refine ⟨K', ⟨grows, fun v h => h.imp_right fun eq => ⟨new, eq⟩⟩, ?_, ?_, .inr rfl, rfl, rfl, rfl⟩
  · constructor
    · intro h known
      rcases cases h known with known | rfl
      · exact (knowledge.handle h known).mono grows
      · exact (typed _).mono grows
    · rintro o (known | eq)
      · exact knowledge.object o known
      · cases eq
    · rintro t (known | eq)
      · exact knowledge.throwable t known
      · cases eq
    · rintro c (known | eq)
      · exact knowledge.site c known
      · cases eq
  · show HandleTable.Sound K' ⟨t.adapters.push none⟩
    constructor
    · intro h known
      rw [Array.size_push]
      rcases cases h known with known | rfl
      · exact Nat.lt_succ_of_lt (sound.inside h known)
      · exact Nat.lt_succ_self _
    · intro h h' known known' ids
      rcases cases h known with known | rfl <;> rcases cases h' known' with known' | rfl
      · exact sound.unique h h' known known' ids
      · exact absurd ids (Nat.ne_of_lt (sound.inside h known))
      · exact absurd ids.symm (Nat.ne_of_lt (sound.inside h' known'))
      · rfl
    · intro h a known found
      simp only [HandleTable.adapter?, Array.getElem?_push] at found
      rcases cases h known with known | rfl
      · rw [if_neg (Nat.ne_of_lt (sound.inside h known))] at found
        obtain ⟨known', others⟩ := sound.adapter h a known found
        exact ⟨grows _ known', others⟩
      · rw [if_pos rfl] at found
        cases found

theorem Blueprint.make_safe {b : Blueprint} (typed : b.Typed F K) :
    Build.Safe F K b.make fun K' h =>
      K' (.handle h) ∧ h.signature = b.signature ∧ h.program = b.program ∧
        h.variableArity = false :=
  Handle.make_safe fun _ => ⟨typed, fun h => by cases h⟩

/-- A blueprint that is typed wherever it is accepted makes a handle at hand. -/
theorem Build.allocate_safe {b : Checked Blueprint} (h : Ends Halt.IsStatic (·.Typed F K) b) :
    Build.Safe F K (.allocate b) fun K' h => K' (.handle h) := by
  cases b with
  | error halt => exact fun t knowledge sound => ⟨K, .refl K, knowledge, sound, h⟩
  | ok blueprint => exact (Blueprint.make_safe h).imp fun _ _ _ made => made.1

theorem Build.accept_safe {b : Except Failure Blueprint}
    (h : Ends (·.isStatic = true) (·.Typed F K) b) :
    Build.Safe F K (.accept b) fun K' h => K' (.handle h) :=
  allocate_safe (.ofExcept h)

/-! Handles at another signature. -/

/-- A handle at hand whose signature converts to another one has an adapter to it. -/
theorem Blueprint.adapting_typed {h : Handle} {s : Signature} (knowledge : Knowledge F K)
    (known : K (.handle h)) (valid : s.Valid F.Has)
    (convertible : h.signature.isConvertibleTo s = true) : (adapting h s).Typed F K := by
  have typed := knowledge.handle h known
  unfold adapting
  split
  · next view => exact sharing_typed typed valid view
  · refine converting_typed known typed valid ?_
    rw [Signature.isConvertibleTo, Bool.or_eq_true, Bool.and_eq_true,
      Bool.and_eq_true] at convertible
    rcases convertible with same | ⟨⟨lengths, -⟩, -⟩
    · rw [(Signature.beq_iff typed.valid valid).1 same]
    · simpa [Signature.arity] using lengths

theorem Blueprint.adapting_signature (h : Handle) (s : Signature) :
    (adapting h s).signature = s := by
  unfold adapting
  split <;> rfl

namespace Handle

theorem remember_safe {h a : Handle} (known : K (.handle h)) (adapter : K (.handle a))
    (convertible : h.signature.isConvertibleTo a.signature = true)
    (program : a.program = (Blueprint.adapting h a.signature).program) :
    Build.Safe F K (modify (·.remember h a)) fun _ _ => True := by
  intro t knowledge sound
  refine ⟨K, .refl K, knowledge, ?_, trivial⟩
  show HandleTable.Sound K (t.remember h a)
  refine ⟨fun g hg => ?_, sound.unique, fun g b hg found => ?_⟩
  · rw [HandleTable.size_remember]
    exact sound.inside g hg
  · by_cases ids : h.id = g.id
    · cases sound.unique h g known hg ids
      rw [HandleTable.adapter?_remember (sound.inside h known)] at found
      cases found
      exact ⟨adapter, convertible, program⟩
    · rw [HandleTable.adapter?_remember_of_ne ids] at found
      exact sound.adapter g b hg found

/-- Adapting yields the handle itself or an adapter of it. -/
theorem asType_safe {h : Handle} {s : Signature} (known : K (.handle h)) (valid : s.Valid F.Has) :
    Build.Safe F K (h.asType s) fun K' a => K' (.handle a) ∧ a.signature = s ∧
      (a = h ∨ a.program = (Blueprint.adapting h s).program) := by
  refine .ofKnowledge fun knowledge => ?_
  unfold asType
  dsimp only
  split
  · next same =>
    have own := (knowledge.handle h known).valid
    exact .pure ⟨known, (Signature.beq_iff own valid).1 same, .inl rfl⟩
  refine Build.Safe.get.bind fun K₁ t grows knowledge sound => ?_
  have known := grows _ known
  split
  · next a found =>
    obtain ⟨found, same⟩ := Option.filter_eq_some_iff.1 found
    obtain ⟨adapter, -, program⟩ := sound.adapter h a known found
    have eq := (Signature.beq_iff (knowledge.handle a adapter).valid valid).1 same
    rw [eq] at program
    exact .pure ⟨adapter, eq, .inr program⟩
  · refine .check rfl fun convertible => ?_
    have convertible : h.signature.isConvertibleTo s = true := by simpa using convertible
    refine (Blueprint.make_safe (Blueprint.adapting_typed knowledge known valid convertible)).bind
      fun K₂ a grows _ made => ?_
    obtain ⟨adapter, signature, program, -⟩ := made
    rw [Blueprint.adapting_signature] at signature
    refine (remember_safe (grows _ known) adapter (by rw [signature]; exact convertible)
      (by rw [signature, program])).bind fun K₃ _ grows _ _ => ?_
    exact .pure ⟨grows _ adapter, signature, .inr program⟩

theorem viewAs_safe {h : Handle} {s : Signature} (strict : Bool) (known : K (.handle h))
    (valid : s.Valid F.Has) :
    Build.Safe F K (h.viewAs s strict) fun K' a => K' (.handle a) := by
  refine .ofKnowledge fun knowledge => ?_
  have typed := knowledge.handle h known
  unfold viewAs
  dsimp only
  split
  · exact .pure known
  refine .check rfl fun view => ?_
  have view : h.signature.isViewableAs s strict = true := by simpa using view
  refine (Blueprint.make_safe ?_).imp fun _ _ _ made => made.1
  cases strict with
  | true => exact Blueprint.sharing_typed typed valid view
  | false =>
    refine Blueprint.converting_typed known typed valid ?_
    simp only [Signature.isViewableAs, Bool.and_eq_true, beq_iff_eq] at view
    exact view.1.1

/-! Handles that collect, and dropped arguments. -/

theorem asVariableArity_safe {h : Handle} {array : Kind} (known : K (.handle h))
    (given : array.Over F.Has) :
    Build.Safe F K (h.asVariableArity array) fun K' a => K' (.handle a) := by
  refine .ofKnowledge fun knowledge => ?_
  have typed := knowledge.handle h known
  unfold asVariableArity
  refine .check rfl fun trailing => ?_
  split
  · exact .pure known
  · refine (make_safe fun id => ⟨typed.blueprint, fun _ => ?_⟩).imp fun _ _ _ made => made.1
    rw [Bool.not_eq_true, Bool.or_eq_false_iff, ← Bool.not_eq_true, Option.isNone_iff_eq_none,
      ← ne_eq, Option.ne_none_iff_exists'] at trailing
    obtain ⟨⟨element, isArray⟩, last⟩ := trailing
    refine ⟨element, ?_⟩
    rw [← Kind.eq_arrayOf_of_element? isArray]
    cases hlast : h.signature.params.getLast? with
    | none =>
      rw [hlast] at last
      cases last
    | some k =>
      rw [hlast] at last
      have same : (k == array) = true := by simpa [bne] using last
      have k_over := typed.valid.params_over k (List.mem_of_getLast? hlast)
      rw [(Kind.beq_iff k_over given).1 same]

theorem asFixedArity_safe {h : Handle} (known : K (.handle h)) :
    Build.Safe F K h.asFixedArity fun K' a => K' (.handle a) := by
  refine .ofKnowledge fun knowledge => ?_
  unfold asFixedArity
  split
  · exact (make_safe fun id => ⟨(knowledge.handle h known).blueprint,
      fun h => by cases h⟩).imp fun _ _ _ made => made.1
  · exact .pure known

theorem collectedCount_ends (h : Handle) (caller : Signature) :
    Ends Halt.IsStatic (fun _ => True) (h.collectedCount caller) := by
  unfold collectedCount
  split
  · trivial
  · refine Ends.bind (Ends.ofOption fun _ h => h) fun array _ => ?_
    dsimp only
    split
    · trivial
    · exact Ends.check rfl fun _ => trivial

theorem adaptedTo_safe {h : Handle} {caller : Signature} (known : K (.handle h))
    (valid : caller.Valid F.Has) :
    Build.Safe F K (h.adaptedTo caller) fun K' a => K' (.handle a) ∧ a.signature = caller := by
  refine .ofKnowledge fun knowledge => ?_
  unfold adaptedTo
  refine .bindChecked (h.collectedCount_ends caller) fun count _ => ?_
  split
  · next count =>
    refine .bindChecked (Ends.ofOption fun array found => List.mem_of_getElem? found)
      fun array mem => ?_
    have given := (knowledge.handle h known).valid.params_over array mem
    refine (Build.allocate_safe ((Blueprint.collector_ends h array count).imp fun _ typed =>
      typed F K knowledge known given)).bind fun K₁ collector _ _ made => ?_
    exact (asType_safe made valid).imp fun _ _ _ made => ⟨made.1, made.2.1⟩
  · exact (asType_safe known valid).imp fun _ _ _ made => ⟨made.1, made.2.1⟩

theorem dropArguments_safe {h : Handle} (pos : Nat) {kinds : List Kind} (known : K (.handle h))
    (given : ∀ k ∈ kinds, k.Over F.Has) :
    Build.Safe F K (h.dropArguments pos kinds) fun K' a => K' (.handle a) := by
  refine .ofKnowledge fun knowledge => ?_
  unfold dropArguments
  refine .bindChecked (Blueprint.requirePositions_ends _ _ _) fun _ _ => ?_
  split
  · exact .pure known
  · exact Build.allocate_safe ((Blueprint.insertIgnored_ends h pos kinds).imp
      fun _ typed => typed.2 F K knowledge known given)

theorem dropArgumentsToMatch_safe {h : Handle} (skip : Nat) {kinds : List Kind} (pos : Nat)
    (known : K (.handle h)) (given : ∀ k ∈ kinds, k.Over F.Has) :
    Build.Safe F K (h.dropArgumentsToMatch skip kinds pos) fun K' a => K' (.handle a) := by
  unfold dropArgumentsToMatch
  refine .bindChecked (Blueprint.requirePositions_ends _ _ _) fun _ _ => ?_
  refine .check rfl fun _ => ?_
  refine .bindChecked (Ends.ofExcept (Signature.make_ends _ _)) fun _ _ => ?_
  refine .bindChecked (Ends.ofOption fun _ found => found) fun _ _ => ?_
  refine .check rfl fun _ => ?_
  refine (dropArguments_safe skip known fun k hk => given k (List.mem_of_mem_take hk)).bind
    fun K₁ leading _ _ made => ?_
  exact dropArguments_safe _ made fun k hk => given k (List.mem_of_mem_drop hk)

/-! Loops. -/

theorem loop_safe {clauses : List LoopClause} (known : ClausesKnown K clauses) :
    Build.Safe F K (loop clauses) fun K' h => K' (.handle h) :=
  .ofKnowledge fun knowledge => Build.accept_safe
    ((Blueprint.loop_ends clauses).imp fun _ typed => typed F K knowledge known)

/-- The finalizer of a loop variable, where it has one, is at hand. -/
theorem returning_safe {kind : Kind} {skipped : List Kind} (given : kind.Over F.Has)
    (skipped_over : ∀ k ∈ skipped, k.Over F.Has) :
    Build.Safe F K (returning kind skipped) fun K' fini => ∀ h, fini = some h → K' (.handle h) := by
  unfold returning
  split
  · exact .pure fun h eq => by cases eq
  · refine (Build.accept_safe ((Blueprint.identity_ends kind).imp fun _ typed =>
      typed.2 F K given)).bind fun K₁ same _ _ made => ?_
    refine (dropArguments_safe 0 made skipped_over).bind fun K₂ fini _ _ made => ?_
    exact .pure fun h eq => by cases eq; exact made

theorem constant_safe {kind : Kind} {v : Value} (given : kind.Over F.Has) (made : v.MadeOf F K) :
    Build.Safe F K (.accept (Blueprint.constant kind v)) fun K' h => K' (.handle h) :=
  Build.accept_safe ((Blueprint.constant_ends kind v).imp fun _ typed => typed.2 F K given made)

theorem intLess_safe :
    Build.Safe F K (.accept Blueprint.intLess) fun K' h => K' (.handle h) :=
  Build.accept_safe (Blueprint.intLess_ends.imp fun _ typed => typed.2 F K)

theorem intIncrement_safe :
    Build.Safe F K (.accept Blueprint.intIncrement) fun K' h => K' (.handle h) :=
  Build.accept_safe (Blueprint.intIncrement_ends.imp fun _ typed => typed.2 F K)

theorem variableKinds_over {kind : Kind} (given : kind.Over F.Has) :
    ∀ k ∈ variableKinds kind, k.Over F.Has := by
  unfold variableKinds
  split
  · exact List.forall_mem_nil _
  · simpa using given

/-- The functions of a clause are at hand where each part is. -/
theorem functions_known {init step pred fini : Option Handle}
    (hinit : ∀ h, init = some h → K (.handle h)) (hstep : ∀ h, step = some h → K (.handle h))
    (hpred : ∀ h, pred = some h → K (.handle h)) (hfini : ∀ h, fini = some h → K (.handle h)) :
    ∀ h ∈ (LoopClause.mk init step pred fini).functions, K (.handle h) := by
  intro h mem
  simp only [LoopClause.functions, LoopClause.bodyFunctions, List.mem_append,
    Option.mem_toList] at mem
  rcases mem with mem | (mem | mem) | mem
  · exact hinit h mem
  · exact hstep h mem
  · exact hpred h mem
  · exact hfini h mem

/-- Nothing is asked of a part that is not there. -/
theorem none_known : ∀ h : Handle, none = some h → K (.handle h) := fun _ eq => by cases eq

theorem some_known {h : Handle} (known : K (.handle h)) :
    ∀ g : Handle, some h = some g → K (.handle g) := fun _ eq => by cases eq; exact known

theorem whileLoop_safe {init : Option Handle} {pred body : Handle}
    (hinit : ∀ h, init = some h → K (.handle h)) (hpred : K (.handle pred))
    (hbody : K (.handle body)) :
    Build.Safe F K (whileLoop init pred body) fun K' h => K' (.handle h) := by
  refine .ofKnowledge fun knowledge => ?_
  unfold whileLoop
  refine (returning_safe (knowledge.handle body hbody).valid.ret_over
    (List.forall_mem_nil _)).bind fun K₁ fini grows _ hfini => ?_
  refine loop_safe ?_
  rw [ClausesKnown, List.forall_mem_singleton]
  exact functions_known (fun h eq => grows _ (hinit h eq)) (some_known (grows _ hbody))
    (some_known (grows _ hpred)) hfini

theorem doWhileLoop_safe {init : Option Handle} {body pred : Handle}
    (hinit : ∀ h, init = some h → K (.handle h)) (hbody : K (.handle body))
    (hpred : K (.handle pred)) :
    Build.Safe F K (doWhileLoop init body pred) fun K' h => K' (.handle h) := by
  unfold doWhileLoop
  have bool : ∀ k ∈ [Kind.bool], k.Over F.Has := by simp
  refine (constant_safe Kind.over_prim (.plain rfl)).bind fun K₁ yes g₁ _ hyes => ?_
  refine (constant_safe Kind.over_prim (.plain rfl)).bind fun K₂ no g₂ _ hno => ?_
  refine (dropArguments_safe 0 (g₁.trans g₂ _ hpred) bool).bind fun K₃ pred g₃ k₃ hpred => ?_
  refine (constant_safe Kind.over_prim (.plain rfl)).bind fun K₄ constantly g₄ _ hconst => ?_
  refine (dropArguments_safe 0 hconst (k₃.handle pred hpred).valid.params_over).bind
    fun K₅ always g₅ _ halways => ?_
  refine (Build.accept_safe ((Blueprint.identity_ends .bool).imp fun _ typed =>
    typed.2 F K₅ Kind.over_prim)).bind fun K₆ flag g₆ k₆ hflag => ?_
  have g₃₆ := (g₄.trans g₅).trans g₆
  refine (Build.allocate_safe ((Blueprint.branching_ends flag always pred).imp fun _ typed =>
    typed F K₆ k₆ hflag (g₆ _ halways) (g₃₆ _ hpred))).bind fun K₇ checked g₇ _ hchecked => ?_
  have g₂₇ := (g₃.trans g₃₆).trans g₇
  have g₀₇ := (g₁.trans g₂).trans g₂₇
  refine (dropArguments_safe 0 (g₀₇ _ hbody) bool).bind fun K₈ step g₈ k₈ hstep => ?_
  refine (returning_safe (k₈.handle body (g₈ _ (g₀₇ _ hbody))).valid.ret_over bool).bind
    fun K₉ fini g₉ _ hfini => ?_
  have g₇₉ := g₈.trans g₉
  have g₂₉ := g₂₇.trans g₇₉
  refine loop_safe ?_
  rw [ClausesKnown, List.forall_mem_cons, List.forall_mem_singleton]
  refine ⟨functions_known (some_known (g₂₉ _ (g₂ _ hyes))) (some_known (g₂₉ _ hno)) none_known
    none_known, functions_known (fun h eq => g₇₉ _ (g₀₇ _ (hinit h eq)))
      (some_known (g₉ _ hstep)) (some_known (g₇₉ _ hchecked)) hfini⟩

theorem countedLoopRange_safe {start stop : Handle} {init : Option Handle} {body : Handle}
    (hstart : K (.handle start)) (hstop : K (.handle stop))
    (hinit : ∀ h, init = some h → K (.handle h)) (hbody : K (.handle body)) :
    Build.Safe F K (countedLoopRange start stop init body) fun K' h => K' (.handle h) := by
  refine .ofKnowledge fun knowledge => ?_
  unfold countedLoopRange
  dsimp only
  split
  · exact .refuse rfl
  have ret_over := (knowledge.handle body hbody).valid.ret_over
  have vars_over := variableKinds_over ret_over
  split
  · exact .bindChecked (Ends.ofExcept (Signature.make_ends _ _)) fun _ _ => .refuse rfl
  have int : ∀ k ∈ [Kind.int], k.Over F.Has := by simp
  have int_vars_over : ∀ k ∈ Kind.int :: variableKinds body.signature.ret, k.Over F.Has :=
    List.forall_mem_cons.2 ⟨Kind.over_prim, vars_over⟩
  refine intLess_safe.bind fun K₁ less g₁ k₁ hless => ?_
  refine .bindChecked (Ends.ofExcept (Signature.make_ends _ _)) fun tested htested => ?_
  obtain ⟨rfl, wf⟩ := htested
  have tested_over : ∀ k ∈ Kind.int :: variableKinds body.signature.ret ++ [Kind.int],
      k.Over F.Has := List.forall_mem_append.2 ⟨int_vars_over, int⟩
  refine (Build.allocate_safe ((Blueprint.permuteArguments_ends less _ _).imp fun _ typed =>
    typed.2 F K₁ k₁ hless ⟨wf, Kind.over_prim, tested_over⟩)).bind fun K₂ less g₂ _ hless => ?_
  refine intIncrement_safe.bind fun K₃ increment g₃ _ hincrement => ?_
  refine (dropArguments_safe 0 hincrement int_vars_over).bind
    fun K₄ increment g₄ _ hincrement => ?_
  have g₀₄ := ((g₁.trans g₂).trans g₃).trans g₄
  refine (dropArguments_safe 0 (g₀₄ _ hbody) int).bind fun K₅ step g₅ _ hstep => ?_
  refine (returning_safe ret_over int).bind fun K₆ fini g₆ _ hfini => ?_
  have g₄₆ := g₅.trans g₆
  have g₀₆ := g₀₄.trans g₄₆
  have g₂₆ := (g₃.trans g₄).trans g₄₆
  refine loop_safe ?_
  rw [ClausesKnown, List.forall_mem_cons, List.forall_mem_cons, List.forall_mem_singleton]
  exact ⟨functions_known (some_known (g₀₆ _ hstop)) none_known none_known none_known,
    functions_known (fun h eq => g₀₆ _ (hinit h eq)) (some_known (g₆ _ hstep)) none_known hfini,
    functions_known (some_known (g₀₆ _ hstart)) (some_known (g₄₆ _ hincrement))
      (some_known (g₂₆ _ hless)) none_known⟩

theorem countedLoop_safe {iterations : Handle} {init : Option Handle} {body : Handle}
    (hiterations : K (.handle iterations)) (hinit : ∀ h, init = some h → K (.handle h))
    (hbody : K (.handle body)) :
    Build.Safe F K (countedLoop iterations init body) fun K' h => K' (.handle h) := by
  unfold countedLoop
  refine (constant_safe Kind.over_prim (.plain rfl)).bind fun K₁ zero grows _ hzero => ?_
  exact countedLoopRange_safe hzero (grows _ hiterations) (fun h eq => grows _ (hinit h eq))
    (grows _ hbody)

theorem iteratedLoop_safe {array : Kind} {init : Option Handle} {body : Handle}
    (given : array.Over F.Has) (hinit : ∀ h, init = some h → K (.handle h))
    (hbody : K (.handle body)) :
    Build.Safe F K (iteratedLoop array init body) fun K' h => K' (.handle h) := by
  refine .ofKnowledge fun knowledge => ?_
  unfold iteratedLoop
  refine .check rfl fun _ => ?_
  have valid := (knowledge.handle body hbody).valid
  have vars_over := variableKinds_over valid.ret_over
  dsimp only
  split
  · exact .bindChecked (Ends.ofExcept (Signature.make_ends _ _)) fun _ _ => .refuse rfl
  refine .bindChecked (Ends.ofOption fun element found => List.mem_of_getElem? found)
    fun element mem => ?_
  have array_int : ∀ k ∈ [array, Kind.int], k.Over F.Has := by simpa using given
  refine (Build.accept_safe ((Blueprint.arrayItem_ends array).imp fun _ typed => by
    obtain ⟨_, _, _, typed⟩ := typed
    exact typed F K given)).bind fun K₁ getter g₁ _ hgetter => ?_
  refine .bindChecked (Ends.ofExcept (Signature.make_ends _ _)) fun item hitem => ?_
  obtain ⟨rfl, wf⟩ := hitem
  refine (asType_safe hgetter ⟨wf, valid.params_over element mem, array_int⟩).bind
    fun K₂ getter g₂ k₂ made => ?_
  refine (Build.allocate_safe ((Blueprint.collectArguments_ends body _ getter).imp fun _ typed =>
    typed.2 F K₂ k₂ (g₁.trans g₂ _ hbody) made.1)).bind fun K₃ fetched g₃ k₃ hfetched => ?_
  refine .bindChecked (Ends.ofExcept (Signature.make_ends _ _)) fun stepped hstepped => ?_
  obtain ⟨rfl, wf⟩ := hstepped
  have stepped_over : ∀ k ∈ variableKinds body.signature.ret ++ [Kind.int, array] ++
      body.signature.paramsFrom ((variableKinds body.signature.ret).length + 1),
      k.Over F.Has := by
    refine List.forall_mem_append.2 ⟨List.forall_mem_append.2 ⟨vars_over, by simpa using given⟩, ?_⟩
    exact fun k hk => valid.params_over k (List.mem_of_mem_drop hk)
  refine (Build.allocate_safe ((Blueprint.permuteArguments_ends fetched _ _).imp fun _ typed =>
    typed.2 F K₃ k₃ hfetched ⟨wf, valid.ret_over, stepped_over⟩)).bind
      fun K₄ step g₄ _ hstep => ?_
  refine intLess_safe.bind fun K₅ less g₅ _ hless => ?_
  refine (Build.accept_safe ((Blueprint.arrayLength_ends array).imp fun _ typed =>
    typed.2 F K₅ given)).bind fun K₆ length g₆ k₆ hlength => ?_
  refine (Build.allocate_safe ((Blueprint.collectArguments_ends less 1 length).imp fun _ typed =>
    typed.2 F K₆ k₆ (g₆ _ hless) hlength)).bind fun K₇ inBounds g₇ _ hinBounds => ?_
  refine (dropArguments_safe 0 hinBounds vars_over).bind fun K₈ inBounds g₈ _ hinBounds => ?_
  refine intIncrement_safe.bind fun K₉ increment g₉ _ hincrement => ?_
  refine (dropArguments_safe 0 hincrement vars_over).bind
    fun K₁₀ increment g₁₀ _ hincrement => ?_
  refine (returning_safe valid.ret_over (List.forall_mem_nil _)).bind
    fun K₁₁ fini g₁₁ _ hfini => ?_
  refine (constant_safe Kind.over_prim (.plain rfl)).bind fun K₁₂ zero g₁₂ _ hzero => ?_
  have g₁₀₁₂ := g₁₁.trans g₁₂
  have g₈₁₂ := (g₉.trans g₁₀).trans g₁₀₁₂
  have g₄₁₂ := (((g₅.trans g₆).trans g₇).trans g₈).trans g₈₁₂
  have g₀₁₂ := (((g₁.trans g₂).trans g₃).trans g₄).trans g₄₁₂
  refine loop_safe ?_
  rw [ClausesKnown, List.forall_mem_cons, List.forall_mem_singleton]
  exact ⟨functions_known (fun h eq => g₀₁₂ _ (hinit h eq)) (some_known (g₄₁₂ _ hstep)) none_known
      (fun h eq => g₁₂ _ (hfini h eq)),
    functions_known (some_known hzero) (some_known (g₁₀₁₂ _ hincrement))
      (some_known (g₈₁₂ _ hinBounds)) none_known⟩

end Handle

/-! All constructions. -/

/-- An optional handle that is at hand where there is one. -/
def OptionKnown (K : Known) (h : Option Handle) : Prop := ∀ g, h = some g → K (.handle g)

/-- A construction from what is at hand. -/
def Construction.MadeOf (F : ClassLibrary) (K : Known) : Construction → Prop
  | .ofAction signature action => signature.Valid F.Has ∧ action.MadeOf F K
  | .identity kind | .zero kind | .arrayItem kind | .arrayLength kind => kind.Over F.Has
  | .constant kind value => kind.Over F.Has ∧ value.MadeOf F K
  | .empty signature => signature.Valid F.Has
  | .throwException ret exception => ret.Over F.Has ∧ exception.Over F.Has
  | .asType target signature | .viewAs target signature _ | .permuteArguments target signature _ =>
    K (.handle target) ∧ signature.Valid F.Has
  | .asVariableArity target array | .asSpreader target array _ | .asCollector target array _ =>
    K (.handle target) ∧ array.Over F.Has
  | .asFixedArity target => K (.handle target)
  | .insertArguments target _ values => K (.handle target) ∧ ∀ v ∈ values, v.MadeOf F K
  | .dropArguments target _ kinds | .dropArgumentsToMatch target _ kinds _ =>
    K (.handle target) ∧ ∀ k ∈ kinds, k.Over F.Has
  | .filterArguments target _ filters =>
    K (.handle target) ∧ ∀ f, some f ∈ filters → K (.handle f)
  | .filterReturnValue target other | .collectArguments target _ other
  | .foldArguments target _ other | .tryFinally target other =>
    K (.handle target) ∧ K (.handle other)
  | .guardWithTest test target fallback =>
    K (.handle test) ∧ K (.handle target) ∧ K (.handle fallback)
  | .catchException target exception handler =>
    K (.handle target) ∧ exception.Over F.Has ∧ K (.handle handler)
  | .loop clauses => ClausesKnown K clauses
  | .whileLoop init first second | .doWhileLoop init first second =>
    OptionKnown K init ∧ K (.handle first) ∧ K (.handle second)
  | .countedLoop iterations init body =>
    K (.handle iterations) ∧ OptionKnown K init ∧ K (.handle body)
  | .countedLoopRange start stop init body =>
    K (.handle start) ∧ K (.handle stop) ∧ OptionKnown K init ∧ K (.handle body)
  | .iteratedLoop array init body => array.Over F.Has ∧ OptionKnown K init ∧ K (.handle body)
  | .dynamicInvoker site => K (.callSite site)

/-- Every construction from what is at hand makes a handle that is typed. -/
theorem Construction.build_safe {c : Construction} (made : c.MadeOf F K) :
    Build.Safe F K c.build fun K' h => K' (.handle h) := by
  refine .ofKnowledge fun knowledge => ?_
  cases c with
  | ofAction s action =>
    exact (Blueprint.make_safe (Blueprint.ofAction_typed made.1 made.2)).imp fun _ _ _ h => h.1
  | identity kind =>
    exact Build.accept_safe ((Blueprint.identity_ends kind).imp fun _ h => h.2 F K made)
  | constant kind value => exact Handle.constant_safe made.1 made.2
  | zero kind => exact Build.accept_safe ((Blueprint.zero_ends kind).imp fun _ h => h F K made)
  | empty s => exact (Blueprint.make_safe (Blueprint.empty_typed made)).imp fun _ _ _ h => h.1
  | throwException ret exception =>
    exact Build.accept_safe
      ((Blueprint.throwException_ends ret exception).imp fun _ h => h F K made.1 made.2)
  | arrayItem array =>
    refine Build.accept_safe ((Blueprint.arrayItem_ends array).imp fun _ h => ?_)
    obtain ⟨_, _, _, typed⟩ := h
    exact typed F K made
  | arrayLength array =>
    exact Build.accept_safe ((Blueprint.arrayLength_ends array).imp fun _ h => h.2 F K made)
  | asType target s => exact (Handle.asType_safe made.1 made.2).imp fun _ _ _ h => h.1
  | viewAs target s strict => exact Handle.viewAs_safe strict made.1 made.2
  | asVariableArity target array => exact Handle.asVariableArity_safe made.1 made.2
  | asFixedArity target => exact Handle.asFixedArity_safe made
  | asSpreader target array count =>
    exact Build.allocate_safe ((Blueprint.spreader_ends target array count).imp fun _ h =>
      h F K knowledge made.1 made.2)
  | asCollector target array count =>
    exact Build.allocate_safe ((Blueprint.collector_ends target array count).imp fun _ h =>
      h F K knowledge made.1 made.2)
  | insertArguments target pos values =>
    exact Build.allocate_safe ((Blueprint.insertArguments_ends target pos values).imp fun _ h =>
      h F K knowledge made.1 made.2)
  | dropArguments target pos kinds => exact Handle.dropArguments_safe pos made.1 made.2
  | dropArgumentsToMatch target skip kinds pos =>
    exact Handle.dropArgumentsToMatch_safe skip pos made.1 made.2
  | permuteArguments target s reorder =>
    exact Build.allocate_safe ((Blueprint.permuteArguments_ends target s reorder).imp fun _ h =>
      h.2 F K knowledge made.1 made.2)
  | filterArguments target pos filters =>
    exact Build.allocate_safe ((Blueprint.filterArguments_ends target pos filters).imp fun _ h =>
      h F K knowledge made.1 made.2)
  | filterReturnValue target filter =>
    exact Build.allocate_safe ((Blueprint.filterReturnValue_ends target filter).imp fun _ h =>
      h F K knowledge made.1 made.2)
  | collectArguments target pos filter =>
    exact Build.allocate_safe ((Blueprint.collectArguments_ends target pos filter).imp fun _ h =>
      h.2 F K knowledge made.1 made.2)
  | foldArguments target pos combiner =>
    exact Build.allocate_safe ((Blueprint.foldArguments_ends target pos combiner).imp fun _ h =>
      h F K knowledge made.1 made.2)
  | guardWithTest test target fallback =>
    exact Build.allocate_safe ((Blueprint.branching_ends test target fallback).imp fun _ h =>
      h F K knowledge made.1 made.2.1 made.2.2)
  | catchException target exception handler =>
    exact Build.allocate_safe ((Blueprint.catching_ends target exception handler).imp fun _ h =>
      h F K knowledge made.1 made.2.2 made.2.1)
  | tryFinally target cleanup =>
    exact Build.allocate_safe ((Blueprint.finishing_ends target cleanup).imp fun _ h =>
      h F K knowledge made.1 made.2)
  | loop clauses => exact Handle.loop_safe made
  | whileLoop init pred body => exact Handle.whileLoop_safe made.1 made.2.1 made.2.2
  | doWhileLoop init body pred => exact Handle.doWhileLoop_safe made.1 made.2.1 made.2.2
  | countedLoop iterations init body => exact Handle.countedLoop_safe made.1 made.2.1 made.2.2
  | countedLoopRange start stop init body =>
    exact Handle.countedLoopRange_safe made.1 made.2.1 made.2.2.1 made.2.2.2
  | iteratedLoop array init body => exact Handle.iteratedLoop_safe made.1 made.2.1 made.2.2
  | dynamicInvoker site =>
    exact (Blueprint.make_safe (Blueprint.dynamicInvoker_typed knowledge made)).imp
      fun _ _ _ h => h.1

end TypedHandles
