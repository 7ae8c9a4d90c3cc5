import TypedHandles.Proofs.OwnershipPaths

/-!
Whatever a construction makes refers to what it was made of. So a handle that is built from what
exists refers to what exists, and building changes nothing of what is owned: the table of handles
alone changes, and it lets go of the adapters that it remembers.
-/
namespace TypedHandles

variable {W L : Prop} {s t : State}

/-! Programs that are laid out. -/

/-- Whatever slot they are put on, the steps refer to what exists. -/
def ChainWithin (W : Prop) (s : State) (steps : List (Slot → Binding)) : Prop :=
  ∀ f ∈ steps, ∀ slot, (f slot).step.Within W s

namespace Program

theorem chain_within {steps : List (Slot → Binding)} (h : ChainWithin W s steps)
    (next slot : Slot) : ∀ b ∈ (chain next slot steps).1, b.step.Within W s := by
  induction steps generalizing next slot with
  | nil => exact List.forall_mem_nil _
  | cons f rest ih =>
    obtain ⟨here, others⟩ := List.forall_mem_cons.1 h
    exact List.forall_mem_cons.2 ⟨here slot, ih others (next + 1) next⟩

theorem layout_within {chains : List (Slot × List (Slot → Binding))}
    (h : ∀ c ∈ chains, ChainWithin W s c.2) (next : Slot) :
    ∀ b ∈ (layout next chains).1, b.step.Within W s := by
  induction chains generalizing next with
  | nil => exact List.forall_mem_nil _
  | cons c rest ih =>
    obtain ⟨here, others⟩ := List.forall_mem_cons.1 h
    exact List.forall_mem_append.2 ⟨chain_within here next c.1, ih others _⟩

theorem conversion_within (source target : Kind) : ChainWithin W s (conversion source target) := by
  unfold conversion
  split
  · exact List.forall_mem_nil _
  · exact List.forall_mem_singleton.2 fun _ => Step.within_convert

theorem calling_within {arity : Nat} {before : List Binding} {target : Handle} {args : List Slot}
    (leading : ∀ b ∈ before, b.step.Within W s) (within : target.Within W s) :
    (calling arity before target args).Within W s :=
  List.forall_mem_append.2
    ⟨leading, List.forall_mem_singleton.2 (Step.within_call_iff.2 within)⟩

theorem single_within {sig : Signature} (step : List Slot → Step)
    (within : (step (slots 0 sig.arity)).Within W s) : (single sig step).Within W s :=
  List.forall_mem_singleton.2 within

end Program

/-! Blueprints. -/

namespace Blueprint

/-- A blueprint that refers to what exists. -/
def Within (W : Prop) (s : State) (b : Blueprint) : Prop := b.program.Within W s

variable {target : Handle}

theorem ofAction_within {sig : Signature} {action : Action} (within : action.Within W s) :
    (ofAction sig action).Within W s :=
  Program.single_within (.leaf action) (Step.within_leaf_iff.2 within)

theorem intrinsic_within {f : Intrinsic}
    (plain : ∀ name implementation instantiated, f ≠ .lambda name implementation instantiated) :
    (Action.intrinsic f).Within W s := by
  refine ⟨nofun, ?_⟩
  cases f with
  | lambda => exact absurd rfl (plain _ _ _)
  | _ => exact nofun

theorem identity_within (kind : Kind) :
    Ends (·.isStatic = true) (Blueprint.Within W s) (identity kind) :=
  (Signature.make_ends kind [kind]).bind fun _ _ => List.forall_mem_nil _

theorem empty_within (sig : Signature) : (empty sig).Within W s :=
  Program.single_within (fun _ => .const (.zero sig.ret))
    (Step.within_const_iff.2 (Value.within_zero _))

theorem zero_within (kind : Kind) :
    Ends (·.isStatic = true) (Blueprint.Within W s) (zero kind) :=
  (Signature.make_ends kind []).bind fun _ _ => empty_within _

theorem constant_within (kind : Kind) {v : Value} (within : v.Within W s) :
    Ends (·.isStatic = true) (Blueprint.Within W s) (constant kind v) := by
  refine (Value.coerce_ends v kind).bind fun w fitted => ?_
  refine (Signature.make_ends kind []).bind fun _ _ => ?_
  exact Program.single_within (fun _ => .const w)
    (Step.within_const_iff.2 (Value.within_of_coerce within fitted))

/-- A function of the library on given parameters. -/
theorem ofIntrinsic_within {f : Intrinsic} (ret : Kind) (params : List Kind)
    (plain : ∀ name implementation instantiated, f ≠ .lambda name implementation instantiated) :
    Ends (·.isStatic = true) (Blueprint.Within W s)
      (do let sig ← Signature.make ret params; return ofAction sig (.intrinsic f)) :=
  (Signature.make_ends ret params).bind fun _ _ => ofAction_within (intrinsic_within plain)

theorem throwException_within (ret : Kind) (exception : RefType) :
    Ends (·.isStatic = true) (Blueprint.Within W s) (throwException ret exception) := by
  unfold throwException
  exact Ends.checkFailure rfl fun _ => ofIntrinsic_within (f := .throwArgument) _ _ nofun

theorem arrayItem_within (array : Kind) :
    Ends (·.isStatic = true) (Blueprint.Within W s) (arrayItem array) :=
  (elementOf_ends array).bind fun _ _ => ofIntrinsic_within _ _ nofun

theorem arrayLength_within (array : Kind) :
    Ends (·.isStatic = true) (Blueprint.Within W s) (arrayLength array) :=
  (elementOf_ends array).bind fun _ _ => ofIntrinsic_within _ _ nofun

theorem converting_within (within : target.Within W s) (sig : Signature) :
    (converting target sig).Within W s := by
  refine List.forall_mem_append.2 ⟨Program.layout_within (fun c mem => ?_) _,
    List.forall_mem_cons.2 ⟨Step.within_call_iff.2 within, ?_⟩⟩
  · obtain ⟨i, inside, rfl⟩ := List.mem_mapIdx.1 mem
    exact Program.conversion_within _ _
  · exact Program.chain_within (Program.conversion_within _ _) _ _

theorem sharing_within (within : target.Within W s) (sig : Signature) :
    (sharing target sig).Within W s :=
  Handle.within_iff.1 within

theorem adapting_within (within : target.Within W s) (sig : Signature) :
    (adapting target sig).Within W s := by
  unfold adapting
  split
  · exact sharing_within within sig
  · exact converting_within within sig

theorem spreader_within (within : target.Within W s) (array : Kind) (count : Nat) :
    Ends Halt.IsStatic (Blueprint.Within W s) (spreader target array count) := by
  unfold spreader
  refine (elementOf_ends array).ofExcept.bind fun element _ => ?_
  refine Ends.check rfl fun _ => ?_
  refine (Signature.replaceParams_ends _ _ _ _).ofExcept.bind fun sig _ => ?_
  dsimp only
  split
  · rfl
  refine Program.calling_within (Program.layout_within (fun c mem => ?_) _) within
  obtain ⟨i, inside, rfl⟩ := List.mem_mapIdx.1 mem
  exact List.forall_mem_cons.2 ⟨fun _ => Step.within_spread, Program.conversion_within _ _⟩

theorem collector_within (within : target.Within W s) (array : Kind) (count : Nat) :
    Ends Halt.IsStatic (Blueprint.Within W s) (collector target array count) := by
  unfold collector
  refine (elementOf_ends array).ofExcept.bind fun element _ => ?_
  split
  · rfl
  dsimp only
  split
  · trivial
  refine Ends.check rfl fun _ => ?_
  refine (Signature.replaceParams_ends _ _ _ _).ofExcept.bind fun sig _ => ?_
  refine Ends.check rfl fun _ => ?_
  exact Program.calling_within (List.forall_mem_singleton.2 Step.within_collect) within

theorem insertArguments_within (within : target.Within W s) (pos : Nat) {values : List Value}
    (valuesWithin : ∀ v ∈ values, v.Within W s) :
    Ends Halt.IsStatic (Blueprint.Within W s) (insertArguments target pos values) := by
  unfold insertArguments
  refine (requirePositions_ends _ _ _).bind fun _ _ => ?_
  refine (Ends.ofOption (Q := fun _ => True) fun _ _ => trivial).bind fun kinds _ => ?_
  refine (mapM_ends fun a _ =>
    (Value.coerce_ends a.1 a.2).imp fun _ _ => trivial).ofExcept.bind fun bound fitted => ?_
  refine (Signature.replaceParams_ends _ _ _ _).ofExcept.bind fun sig _ => ?_
  refine Program.calling_within (fun b mem => ?_) within
  obtain ⟨⟨kind, w⟩, paired, rfl⟩ := List.mem_map.1 mem
  obtain ⟨i, inside, rfl⟩ := List.getElem_of_mem (List.of_mem_zip paired).2
  have wide : i < (values.zip kinds).length := by rw [fitted.length_eq]; exact inside
  have given := valuesWithin _ (List.of_mem_zip (List.getElem_mem wide)).1
  exact Step.within_const_iff.2 (Value.within_of_coerce given (fitted.get wide inside))

theorem insertIgnored_within (within : target.Within W s) (pos : Nat) (kinds : List Kind) :
    Ends Halt.IsStatic (Blueprint.Within W s) (insertIgnored target pos kinds) :=
  (Signature.replaceParams_ends _ _ _ _).ofExcept.bind fun _ _ =>
    Program.calling_within (List.forall_mem_nil _) within

theorem requireFeed_static (own sig : Signature) (slot source : Nat) :
    Ends Halt.IsStatic (fun _ => True) (requireFeed own sig slot source) := by
  unfold requireFeed
  refine Ends.check rfl fun _ => ?_
  refine (Ends.ofOption (Q := fun _ => True) fun _ _ => trivial).bind fun _ _ => ?_
  refine (Ends.ofOption (Q := fun _ => True) fun _ _ => trivial).bind fun _ _ => ?_
  exact Ends.check rfl fun _ => trivial

theorem permuteArguments_within (within : target.Within W s) (sig : Signature)
    (reorder : List Nat) :
    Ends Halt.IsStatic (Blueprint.Within W s) (permuteArguments target sig reorder) := by
  unfold permuteArguments
  refine Ends.check rfl fun _ => ?_
  refine Ends.check rfl fun _ => ?_
  refine Ends.bind (P := fun _ => ∀ a ∈ reorder.mapIdx Prod.mk, True)
    (forIn_ends fun a _ => ?_) fun _ _ => ?_
  · exact (requireFeed_static _ _ _ _).bind fun _ _ => ⟨rfl, trivial⟩
  · exact Program.calling_within (List.forall_mem_nil _) within

theorem filterArguments_within (within : target.Within W s) (pos : Nat)
    {filters : List (Option Handle)} (filtersWithin : ∀ f, some f ∈ filters → f.Within W s) :
    Ends Halt.IsStatic (Blueprint.Within W s) (filterArguments target pos filters) := by
  unfold filterArguments
  refine (requirePositions_ends _ _ _).bind fun _ _ => ?_
  refine (filteredParams_ends _ _ _).bind fun params _ => ?_
  refine (Signature.make_ends _ _).ofExcept.bind fun sig _ => ?_
  refine Program.calling_within (Program.layout_within (fun c mem => ?_) _) within
  obtain ⟨i, inside, rfl⟩ := List.mem_mapIdx.1 mem
  intro f hf slot
  obtain ⟨filter, found, rfl⟩ := List.mem_map.1 hf
  exact Step.within_call_iff.2 (filtersWithin filter (mem_of_filterAt (Option.mem_toList.1 found)))

variable {filter combiner test fallback handler cleanup : Handle}

theorem filterReturnValue_within (within : target.Within W s) (filterWithin : filter.Within W s) :
    Ends Halt.IsStatic (Blueprint.Within W s) (filterReturnValue target filter) := by
  unfold filterReturnValue
  refine Ends.check rfl fun _ => ?_
  exact Program.calling_within (List.forall_mem_singleton.2 (Step.within_call_iff.2 within))
    filterWithin

theorem collectArguments_within (within : target.Within W s) (pos : Nat)
    (filterWithin : filter.Within W s) :
    Ends Halt.IsStatic (Blueprint.Within W s) (collectArguments target pos filter) := by
  unfold collectArguments
  dsimp only
  generalize (if filter.signature.returnsVoid = true then 0 else 1) = fed
  refine (requirePositions_ends _ _ _).bind fun _ _ => ?_
  refine (Ends.ofOption (Q := fun _ => True) fun _ _ => trivial).bind fun replaced _ => ?_
  split
  · rfl
  refine (Signature.replaceParams_ends _ _ _ _).ofExcept.bind fun sig _ => ?_
  exact Program.calling_within (List.forall_mem_singleton.2 (Step.within_call_iff.2 filterWithin))
    within

theorem foldArguments_within (within : target.Within W s) (pos : Nat)
    (combinerWithin : combiner.Within W s) :
    Ends Halt.IsStatic (Blueprint.Within W s) (foldArguments target pos combiner) := by
  unfold foldArguments
  dsimp only
  generalize (if combiner.signature.returnsVoid = true then 0 else 1) = folded
  refine (requirePositions_ends _ _ _).bind fun _ _ => ?_
  refine (Ends.ofOption (Q := fun _ => True) fun _ _ => trivial).bind fun replaced _ => ?_
  split
  · rfl
  refine (Ends.ofOption (Q := fun _ => True) fun _ _ => trivial).bind fun following _ => ?_
  refine Ends.check rfl fun _ => ?_
  refine (Signature.replaceParams_ends _ _ _ _).ofExcept.bind fun sig _ => ?_
  exact Program.calling_within
    (List.forall_mem_singleton.2 (Step.within_call_iff.2 combinerWithin)) within

theorem branching_within (testWithin : test.Within W s) (within : target.Within W s)
    (fallbackWithin : fallback.Within W s) :
    Ends Halt.IsStatic (Blueprint.Within W s) (branching test target fallback) := by
  unfold branching
  refine Ends.check rfl fun _ => ?_
  refine Ends.check rfl fun _ => ?_
  refine Ends.check rfl fun _ => ?_
  exact Program.single_within (.branch test target fallback)
    (Step.within_branch_iff.2 ⟨testWithin, within, fallbackWithin⟩)

theorem catching_within (within : target.Within W s) (exception : RefType)
    (handlerWithin : handler.Within W s) :
    Ends Halt.IsStatic (Blueprint.Within W s) (catching target exception handler) := by
  unfold catching
  refine Ends.check rfl fun _ => ?_
  refine Ends.check rfl fun _ => ?_
  refine Ends.check rfl fun _ => ?_
  refine Ends.check rfl fun _ => ?_
  exact Program.single_within (.catching target exception handler)
    (Step.within_catching_iff.2 ⟨within, handlerWithin⟩)

/-- A handle with a cleanup may come to write. -/
theorem finishing_within (may : W) (within : target.Within W s)
    (cleanupWithin : cleanup.Within W s) :
    Ends Halt.IsStatic (Blueprint.Within W s) (finishing target cleanup) := by
  unfold finishing
  refine Ends.check rfl fun _ => ?_
  refine Ends.check rfl fun _ => ?_
  refine Ends.check rfl fun _ => ?_
  refine Ends.check rfl fun _ => ?_
  exact Program.single_within (.finishing target cleanup)
    (Step.within_finishing_iff.2 ⟨may, within, cleanupWithin⟩)

theorem dynamicInvoker_within {site : CallSite} (there : site.id < s.sites.size) :
    (dynamicInvoker site).Within W s :=
  Program.single_within (.dynamic site) (Step.within_dynamic_iff.2 there)

theorem loop_within {clauses : List LoopClause}
    (within : ∀ c ∈ clauses, ∀ f ∈ c.functions, f.Within W s) :
    Ends (·.isStatic = true) (Blueprint.Within W s) (loop clauses) := by
  refine (Blueprint.loop_accepted clauses).imp ?_
  rintro _ ⟨outer, result, accepted, rfl⟩
  exact Program.single_within (.loop _) (Step.within_loop_iff.2 within)

end Blueprint

/-! Computations that make handles. -/

/-- A computation that makes handles. What the table remembers still refers to what exists, and what
is returned is as `Q` says. -/
def Build.Stays {α : Type} (W : Prop) (s : State) (x : Build α) (Q : α → Prop) : Prop :=
  ∀ table : HandleTable, table.Within W s →
    (x table).2.Within W s ∧ Ends Halt.IsStatic Q (x table).1

namespace Build.Stays

variable {α β : Type} {P Q : α → Prop} {R : β → Prop} {x : Build α}

theorem pure {a : α} (h : Q a) : Stays W s (Pure.pure a) Q := fun _ within => ⟨within, h⟩

theorem bind {f : α → Build β} (hx : Stays W s x P) (hf : ∀ a, P a → Stays W s (f a) R) :
    Stays W s (x >>= f) R := by
  intro table within
  obtain ⟨within', ends⟩ := hx table within
  cases result : x table with
  | mk outcome later =>
    rw [result] at within' ends
    cases outcome with
    | error e =>
      rw [bind_of_error result]
      exact ⟨within', ends⟩
    | ok a =>
      rw [bind_of_ok result]
      exact hf a ends later within'

theorem ofChecked {c : Checked α} (h : Ends Halt.IsStatic Q c) :
    Stays W s (Build.ofChecked c) Q :=
  fun _ within => ⟨within, h⟩

theorem refuse {failure : Failure} (h : failure.isStatic = true) :
    Stays W s (Build.refuse failure : Build α) Q :=
  ofChecked h

/-- A check in front of a computation: nothing follows where it refuses. -/
theorem check {c : Prop} [Decidable c] {failure : Failure} {next : Unit → Build α}
    (h : failure.isStatic = true) (passed : ¬ c → Stays W s (next ()) Q) :
    Stays W s (if c then (do let r ← Build.refuse failure; next r) else next ()) Q := by
  by_cases refused : c
  · rw [if_pos refused]
    exact fun _ within => ⟨within, h⟩
  · rw [if_neg refused]
    exact passed refused

theorem get : Stays W s (MonadState.get : Build HandleTable) (HandleTable.Within W s) :=
  fun _ within => ⟨within, within⟩

end Build.Stays

/-- A new handle has no adapter yet. -/
theorem Handle.make_stays {sig : Signature} {p : Program} {variableArity : Bool}
    (within : p.Within W s) :
    Build.Stays W s (Handle.make sig p variableArity) (Handle.Within W s) := by
  intro table remembered
  refine ⟨fun i a found => ?_, Handle.within_iff.2 within⟩
  simp only [make, Array.getElem?_push] at found
  split at found
  · cases found
  · exact remembered i a found

theorem Blueprint.make_stays {b : Blueprint} (within : b.Within W s) :
    Build.Stays W s b.make (Handle.Within W s) :=
  Handle.make_stays within

theorem Build.allocate_stays {b : Checked Blueprint}
    (h : Ends Halt.IsStatic (Blueprint.Within W s) b) :
    Build.Stays W s (.allocate b) (Handle.Within W s) := by
  cases b with
  | error halt => exact fun _ within => ⟨within, h⟩
  | ok blueprint => exact Blueprint.make_stays h

theorem Build.accept_stays {b : Except Failure Blueprint}
    (h : Ends (·.isStatic = true) (Blueprint.Within W s) b) :
    Build.Stays W s (.accept b) (Handle.Within W s) :=
  allocate_stays h.ofExcept

namespace Handle

variable {h body pred start stop iterations : Handle} {init : Option Handle}

theorem remember_stays (h : Handle) {a : Handle} (within : a.Within W s) :
    Build.Stays W s (modify (·.remember h a)) fun _ => True := by
  refine fun table remembered => ⟨fun i b found => ?_, trivial⟩
  change (table.adapters.setIfInBounds h.id (some a))[i]? = some (some b) at found
  rw [Array.getElem?_setIfInBounds] at found
  split at found
  · split at found
    · cases found
      exact within
    · cases found
  · exact remembered i b found

theorem asType_stays (within : h.Within W s) (sig : Signature) :
    Build.Stays W s (h.asType sig) (Handle.Within W s) := by
  unfold asType
  dsimp only
  split
  · exact .pure within
  refine Build.Stays.get.bind fun table remembered => ?_
  split
  · next a found =>
    have known := (Option.filter_eq_some_iff.1 found).1
    exact .pure (remembered h.id a (Option.join_eq_some_iff.1 known))
  · refine .check rfl fun _ => ?_
    refine (Blueprint.make_stays (Blueprint.adapting_within within sig)).bind fun a made => ?_
    exact (remember_stays h made).bind fun _ _ => .pure made

theorem viewAs_stays (within : h.Within W s) (sig : Signature) (strict : Bool) :
    Build.Stays W s (h.viewAs sig strict) (Handle.Within W s) := by
  unfold viewAs
  dsimp only
  split
  · exact .pure within
  refine .check rfl fun _ => Blueprint.make_stays ?_
  split
  · exact Blueprint.sharing_within within sig
  · exact Blueprint.converting_within within sig

theorem asVariableArity_stays (within : h.Within W s) (array : Kind) :
    Build.Stays W s (h.asVariableArity array) (Handle.Within W s) := by
  unfold asVariableArity
  refine .check rfl fun _ => ?_
  split
  · exact .pure within
  · exact make_stays (within_iff.1 within)

theorem asFixedArity_stays (within : h.Within W s) :
    Build.Stays W s h.asFixedArity (Handle.Within W s) := by
  unfold asFixedArity
  split
  · exact make_stays (within_iff.1 within)
  · exact .pure within

theorem adaptedTo_stays (within : h.Within W s) (caller : Signature) :
    Build.Stays W s (h.adaptedTo caller) (Handle.Within W s) := by
  unfold adaptedTo
  refine (Build.Stays.ofChecked (h.collectedCount_ends caller)).bind fun count _ => ?_
  split
  · refine Build.Stays.bind (P := fun _ => True)
      (.ofChecked (.ofOption fun _ _ => trivial)) fun array _ => ?_
    refine (Build.allocate_stays (Blueprint.collector_within within array _)).bind
      fun collector made => ?_
    exact asType_stays made caller
  · exact asType_stays within caller

theorem dropArguments_stays (within : h.Within W s) (pos : Nat) (kinds : List Kind) :
    Build.Stays W s (h.dropArguments pos kinds) (Handle.Within W s) := by
  unfold dropArguments
  refine (Build.Stays.ofChecked (Blueprint.requirePositions_ends _ _ _)).bind fun _ _ => ?_
  split
  · exact .pure within
  · exact Build.allocate_stays (Blueprint.insertIgnored_within within pos kinds)

/-- The signature of what is wanted is made for a message alone. -/
theorem make_static (ret : Kind) (params : List Kind) :
    Build.Stays W s (Build.ofChecked (Checked.ofExcept (Signature.make ret params)))
      fun _ => True :=
  .ofChecked ((Signature.make_ends ret params).ofExcept.imp fun _ _ => trivial)

theorem dropArgumentsToMatch_stays (within : h.Within W s) (skip : Nat) (kinds : List Kind)
    (pos : Nat) :
    Build.Stays W s (h.dropArgumentsToMatch skip kinds pos) (Handle.Within W s) := by
  unfold dropArgumentsToMatch
  refine (Build.Stays.ofChecked (Blueprint.requirePositions_ends _ _ _)).bind fun _ _ => ?_
  refine .check rfl fun _ => ?_
  refine (make_static _ _).bind fun _ _ => ?_
  refine Build.Stays.bind (P := fun _ => True)
    (.ofChecked (.ofOption fun _ _ => trivial)) fun _ _ => ?_
  refine .check rfl fun _ => ?_
  refine (dropArguments_stays within skip _).bind fun leading made => ?_
  exact dropArguments_stays made _ _

/-! Loops. -/

theorem loop_stays {clauses : List LoopClause}
    (within : ∀ c ∈ clauses, ∀ f ∈ c.functions, f.Within W s) :
    Build.Stays W s (loop clauses) (Handle.Within W s) :=
  Build.accept_stays (Blueprint.loop_within within)

theorem constant_stays (kind : Kind) {v : Value} (plain : v.isPlain = true) :
    Build.Stays W s (.accept (Blueprint.constant kind v)) (Handle.Within W s) :=
  Build.accept_stays (Blueprint.constant_within kind (Value.within_of_isPlain plain))

theorem returning_stays (kind : Kind) (skipped : List Kind) :
    Build.Stays W s (returning kind skipped) fun fini => ∀ f ∈ fini, f.Within W s := by
  unfold returning
  split
  · exact .pure nofun
  · refine (Build.accept_stays (Blueprint.identity_within kind)).bind fun same made => ?_
    refine (dropArguments_stays made 0 skipped).bind fun fini made => ?_
    exact .pure fun f eq => Option.some.inj eq ▸ made

theorem forall_mem_some {P : Handle → Prop} (here : P h) : ∀ f ∈ some h, P f :=
  fun _ eq => Option.some.inj eq ▸ here

/-- The functions of a clause refer to what exists where each part does. -/
theorem functions_within {init step pred fini : Option Handle}
    (hinit : ∀ f ∈ init, f.Within W s) (hstep : ∀ f ∈ step, f.Within W s)
    (hpred : ∀ f ∈ pred, f.Within W s) (hfini : ∀ f ∈ fini, f.Within W s) :
    ∀ f ∈ (LoopClause.mk init step pred fini).functions, f.Within W s := by
  intro f mem
  simp only [LoopClause.functions, LoopClause.bodyFunctions, List.mem_append,
    Option.mem_toList] at mem
  rcases mem with mem | (mem | mem) | mem
  · exact hinit f mem
  · exact hstep f mem
  · exact hpred f mem
  · exact hfini f mem

theorem whileLoop_stays (hinit : ∀ f ∈ init, f.Within W s) (hpred : pred.Within W s)
    (hbody : body.Within W s) : Build.Stays W s (whileLoop init pred body) (Handle.Within W s) := by
  unfold whileLoop
  refine (returning_stays _ _).bind fun fini hfini => ?_
  exact loop_stays (List.forall_mem_singleton.2
    (functions_within hinit (forall_mem_some hbody) (forall_mem_some hpred) hfini))

theorem doWhileLoop_stays (hinit : ∀ f ∈ init, f.Within W s) (hbody : body.Within W s)
    (hpred : pred.Within W s) :
    Build.Stays W s (doWhileLoop init body pred) (Handle.Within W s) := by
  unfold doWhileLoop
  refine (constant_stays _ rfl).bind fun yes hyes => ?_
  refine (constant_stays _ rfl).bind fun no hno => ?_
  refine (dropArguments_stays hpred 0 _).bind fun pred hpred => ?_
  refine (constant_stays _ rfl).bind fun constantly hconstantly => ?_
  refine (dropArguments_stays hconstantly 0 _).bind fun always halways => ?_
  refine (Build.accept_stays (Blueprint.identity_within .bool)).bind fun flag hflag => ?_
  refine (Build.allocate_stays
    (Blueprint.branching_within hflag halways hpred)).bind fun checked hchecked => ?_
  refine (dropArguments_stays hbody 0 _).bind fun step hstep => ?_
  refine (returning_stays _ _).bind fun fini hfini => ?_
  exact loop_stays (List.forall_mem_cons.2
    ⟨functions_within (forall_mem_some hyes) (forall_mem_some hno) nofun nofun,
      List.forall_mem_singleton.2
        (functions_within hinit (forall_mem_some hstep) (forall_mem_some hchecked) hfini)⟩)

theorem intLess_stays : Build.Stays W s (.accept Blueprint.intLess) (Handle.Within W s) :=
  Build.accept_stays (Blueprint.ofIntrinsic_within (f := .intLess) _ _ nofun)

theorem intIncrement_stays :
    Build.Stays W s (.accept Blueprint.intIncrement) (Handle.Within W s) :=
  Build.accept_stays (Blueprint.ofIntrinsic_within (f := .intIncrement) _ _ nofun)

theorem countedLoopRange_stays (hstart : start.Within W s) (hstop : stop.Within W s)
    (hinit : ∀ f ∈ init, f.Within W s) (hbody : body.Within W s) :
    Build.Stays W s (countedLoopRange start stop init body) (Handle.Within W s) := by
  unfold countedLoopRange
  dsimp only
  split
  · exact .refuse rfl
  split
  · exact (make_static _ _).bind fun _ _ => .refuse rfl
  refine intLess_stays.bind fun less hless => ?_
  refine (make_static _ _).bind fun tested _ => ?_
  refine (Build.allocate_stays (Blueprint.permuteArguments_within hless tested _)).bind
    fun less hless => ?_
  refine intIncrement_stays.bind fun increment hincrement => ?_
  refine (dropArguments_stays hincrement 0 _).bind fun increment hincrement => ?_
  refine (dropArguments_stays hbody 0 _).bind fun step hstep => ?_
  refine (returning_stays _ _).bind fun fini hfini => ?_
  exact loop_stays (List.forall_mem_cons.2
    ⟨functions_within (forall_mem_some hstop) nofun nofun nofun, List.forall_mem_cons.2
      ⟨functions_within hinit (forall_mem_some hstep) nofun hfini, List.forall_mem_singleton.2
        (functions_within (forall_mem_some hstart) (forall_mem_some hincrement)
          (forall_mem_some hless) nofun)⟩⟩)

theorem countedLoop_stays (hiterations : iterations.Within W s)
    (hinit : ∀ f ∈ init, f.Within W s) (hbody : body.Within W s) :
    Build.Stays W s (countedLoop iterations init body) (Handle.Within W s) :=
  (constant_stays _ rfl).bind fun _ hzero => countedLoopRange_stays hzero hiterations hinit hbody

theorem iteratedLoop_stays (array : Kind) (hinit : ∀ f ∈ init, f.Within W s)
    (hbody : body.Within W s) :
    Build.Stays W s (iteratedLoop array init body) (Handle.Within W s) := by
  unfold iteratedLoop
  refine .check rfl fun _ => ?_
  dsimp only
  split
  · exact (make_static _ _).bind fun _ _ => .refuse rfl
  refine Build.Stays.bind (P := fun _ => True)
    (.ofChecked (.ofOption fun _ _ => trivial)) fun element _ => ?_
  refine (Build.accept_stays (Blueprint.arrayItem_within array)).bind fun getter hgetter => ?_
  refine (make_static _ _).bind fun item _ => ?_
  refine (asType_stays hgetter item).bind fun getter hgetter => ?_
  refine (Build.allocate_stays (Blueprint.collectArguments_within hbody _ hgetter)).bind
    fun fetched hfetched => ?_
  refine (make_static _ _).bind fun stepped _ => ?_
  refine (Build.allocate_stays (Blueprint.permuteArguments_within hfetched stepped _)).bind
    fun step hstep => ?_
  refine intLess_stays.bind fun less hless => ?_
  refine (Build.accept_stays (Blueprint.arrayLength_within array)).bind fun length hlength => ?_
  refine (Build.allocate_stays (Blueprint.collectArguments_within hless 1 hlength)).bind
    fun inBounds hinBounds => ?_
  refine (dropArguments_stays hinBounds 0 _).bind fun inBounds hinBounds => ?_
  refine intIncrement_stays.bind fun increment hincrement => ?_
  refine (dropArguments_stays hincrement 0 _).bind fun increment hincrement => ?_
  refine (returning_stays _ _).bind fun fini hfini => ?_
  refine (constant_stays _ rfl).bind fun zero hzero => ?_
  exact loop_stays (List.forall_mem_cons.2
    ⟨functions_within hinit (forall_mem_some hstep) nofun hfini, List.forall_mem_singleton.2
      (functions_within (forall_mem_some hzero) (forall_mem_some hincrement)
        (forall_mem_some hinBounds) nofun)⟩)

end Handle

/-! All constructions. -/

/-- A construction from what exists. One with a cleanup may come to write. -/
def Construction.Within (W : Prop) (s : State) : Construction → Prop
  | .ofAction _ action => action.Within W s
  | .constant _ value => value.Within W s
  | .identity _ | .zero _ | .empty _ | .throwException _ _ | .arrayItem _ | .arrayLength _ => True
  | .asType target _ | .viewAs target _ _ | .asVariableArity target _ | .asFixedArity target
  | .asSpreader target _ _ | .asCollector target _ _ | .dropArguments target _ _
  | .dropArgumentsToMatch target _ _ _ | .permuteArguments target _ _ => target.Within W s
  | .insertArguments target _ values => target.Within W s ∧ ∀ v ∈ values, v.Within W s
  | .filterArguments target _ filters =>
    target.Within W s ∧ ∀ f, some f ∈ filters → f.Within W s
  | .filterReturnValue target other | .collectArguments target _ other
  | .foldArguments target _ other | .catchException target _ other =>
    target.Within W s ∧ other.Within W s
  | .tryFinally target cleanup => W ∧ target.Within W s ∧ cleanup.Within W s
  | .guardWithTest test target fallback =>
    test.Within W s ∧ target.Within W s ∧ fallback.Within W s
  | .loop clauses => ∀ c ∈ clauses, ∀ f ∈ c.functions, f.Within W s
  | .whileLoop init first second | .doWhileLoop init first second
  | .countedLoop first init second =>
    (∀ f ∈ init, f.Within W s) ∧ first.Within W s ∧ second.Within W s
  | .countedLoopRange start stop init body =>
    start.Within W s ∧ stop.Within W s ∧ (∀ f ∈ init, f.Within W s) ∧ body.Within W s
  | .iteratedLoop _ init body => (∀ f ∈ init, f.Within W s) ∧ body.Within W s
  | .dynamicInvoker site => site.id < s.sites.size

theorem Construction.Within.mono {c : Construction} (grows : s.Grows t) (h : c.Within W s) :
    c.Within W t := by
  have one : ∀ f : Handle, f.Within W s → f.Within W t := fun f => Handle.Within.mono grows
  cases c with
  | ofAction => exact Action.Within.mono grows h
  | constant => exact Value.Within.mono grows h
  | identity | zero | empty | throwException | arrayItem | arrayLength => trivial
  | asType | viewAs | asVariableArity | asFixedArity | asSpreader | asCollector | dropArguments
  | dropArgumentsToMatch | permuteArguments => exact one _ h
  | insertArguments => exact ⟨one _ h.1, fun v mem => (h.2 v mem).mono grows⟩
  | filterArguments => exact ⟨one _ h.1, fun f mem => one _ (h.2 f mem)⟩
  | filterReturnValue | collectArguments | foldArguments | catchException =>
    exact ⟨one _ h.1, one _ h.2⟩
  | tryFinally => exact ⟨h.1, one _ h.2.1, one _ h.2.2⟩
  | guardWithTest => exact ⟨one _ h.1, one _ h.2.1, one _ h.2.2⟩
  | loop => exact fun c hc f hf => one _ (h c hc f hf)
  | whileLoop | doWhileLoop | countedLoop =>
    exact ⟨fun f mem => one _ (h.1 f mem), one _ h.2.1, one _ h.2.2⟩
  | countedLoopRange =>
    exact ⟨one _ h.1, one _ h.2.1, fun f mem => one _ (h.2.2.1 f mem), one _ h.2.2.2⟩
  | iteratedLoop => exact ⟨fun f mem => one _ (h.1 f mem), one _ h.2⟩
  | dynamicInvoker => exact Nat.lt_of_lt_of_le h grows.sites

/-- A construction from what exists makes a handle that refers to what exists, or is refused. -/
theorem Construction.build_stays {c : Construction} (h : c.Within W s) :
    Build.Stays W s c.build (Handle.Within W s) := by
  cases c with
  | ofAction sig action => exact Blueprint.make_stays (Blueprint.ofAction_within h)
  | identity kind => exact Build.accept_stays (Blueprint.identity_within kind)
  | constant kind value => exact Build.accept_stays (Blueprint.constant_within kind h)
  | zero kind => exact Build.accept_stays (Blueprint.zero_within kind)
  | empty sig => exact Blueprint.make_stays (Blueprint.empty_within sig)
  | throwException ret exception =>
    exact Build.accept_stays (Blueprint.throwException_within ret exception)
  | arrayItem array => exact Build.accept_stays (Blueprint.arrayItem_within array)
  | arrayLength array => exact Build.accept_stays (Blueprint.arrayLength_within array)
  | asType target sig => exact Handle.asType_stays h sig
  | viewAs target sig strict => exact Handle.viewAs_stays h sig strict
  | asVariableArity target array => exact Handle.asVariableArity_stays h array
  | asFixedArity target => exact Handle.asFixedArity_stays h
  | asSpreader target array count =>
    exact Build.allocate_stays (Blueprint.spreader_within h array count)
  | asCollector target array count =>
    exact Build.allocate_stays (Blueprint.collector_within h array count)
  | insertArguments target pos values =>
    exact Build.allocate_stays (Blueprint.insertArguments_within h.1 pos h.2)
  | dropArguments target pos kinds => exact Handle.dropArguments_stays h pos kinds
  | dropArgumentsToMatch target skip kinds pos =>
    exact Handle.dropArgumentsToMatch_stays h skip kinds pos
  | permuteArguments target sig reorder =>
    exact Build.allocate_stays (Blueprint.permuteArguments_within h sig reorder)
  | filterArguments target pos filters =>
    exact Build.allocate_stays (Blueprint.filterArguments_within h.1 pos h.2)
  | filterReturnValue target filter =>
    exact Build.allocate_stays (Blueprint.filterReturnValue_within h.1 h.2)
  | collectArguments target pos filter =>
    exact Build.allocate_stays (Blueprint.collectArguments_within h.1 pos h.2)
  | foldArguments target pos combiner =>
    exact Build.allocate_stays (Blueprint.foldArguments_within h.1 pos h.2)
  | guardWithTest test target fallback =>
    exact Build.allocate_stays (Blueprint.branching_within h.1 h.2.1 h.2.2)
  | catchException target exception handler =>
    exact Build.allocate_stays (Blueprint.catching_within h.1 exception h.2)
  | tryFinally target cleanup =>
    exact Build.allocate_stays (Blueprint.finishing_within h.1 h.2.1 h.2.2)
  | loop clauses => exact Handle.loop_stays h
  | whileLoop init pred body => exact Handle.whileLoop_stays h.1 h.2.1 h.2.2
  | doWhileLoop init body pred => exact Handle.doWhileLoop_stays h.1 h.2.1 h.2.2
  | countedLoop iterations init body => exact Handle.countedLoop_stays h.2.1 h.1 h.2.2
  | countedLoopRange start stop init body =>
    exact Handle.countedLoopRange_stays h.1 h.2.1 h.2.2.1 h.2.2.2
  | iteratedLoop array init body => exact Handle.iteratedLoop_stays array h.1 h.2
  | dynamicInvoker site => exact Blueprint.make_stays (Blueprint.dynamicInvoker_within h)

end TypedHandles
