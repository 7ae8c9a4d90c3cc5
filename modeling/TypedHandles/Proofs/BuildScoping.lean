import TypedHandles.Proofs.Building
import TypedHandles.Proofs.AdapterScoping

/-!
Whatever a construction makes is scoped, as long as it starts from handles that are scoped, and a
construction is never stuck. `Build.Keeps` is the triple of such computations.
-/
namespace TypedHandles

variable {S S' : Scope}

/-- The adapters that a table remembers are in scope. -/
def HandleTable.InScope (S : Scope) (t : HandleTable) : Prop :=
  ∀ (i : Nat) (a : Handle), t.adapters[i]? = some (some a) → S.handle a

/-- A computation that makes handles and is never stuck. It keeps remembered adapters in scope, and
what it returns is as `Q` says. -/
def Build.Keeps {α : Type} (S : Scope) (x : Build α) (Q : α → Prop) : Prop :=
  ∀ t : HandleTable, t.InScope S → (x t).2.InScope S ∧ Ends Halt.Proper Q (x t).1

namespace Build.Keeps

variable {α β : Type} {P Q : α → Prop} {R : β → Prop} {x : Build α}

theorem pure {a : α} (h : Q a) : Keeps S (Pure.pure a) Q := fun _ inScope => ⟨inScope, h⟩

theorem bind {f : α → Build β} (hx : Keeps S x P) (hf : ∀ a, P a → Keeps S (f a) R) :
    Keeps S (x >>= f) R := by
  intro t inScope
  obtain ⟨inScope', ends⟩ := hx t inScope
  cases result : x t with
  | mk outcome u =>
    rw [result] at inScope' ends
    cases outcome with
    | error e =>
      rw [bind_of_error result]
      exact ⟨inScope', ends⟩
    | ok a =>
      rw [bind_of_ok result]
      exact hf a ends u inScope'

theorem ofChecked {c : Checked α} (h : Ends Halt.Proper Q c) : Keeps S (Build.ofChecked c) Q :=
  fun _ inScope => ⟨inScope, h⟩

theorem refuse {failure : Failure} : Keeps S (Build.refuse failure : Build α) Q :=
  ofChecked (show Ends Halt.Proper Q (Checked.refuse failure) from trivial)

/-- A check in front of a computation: nothing follows where it refuses. -/
theorem check {c : Prop} [Decidable c] {failure : Failure} {next : Unit → Build α}
    (passed : ¬ c → Keeps S (next ()) Q) :
    Keeps S (if c then (do let r ← Build.refuse failure; next r) else next ()) Q := by
  by_cases h : c
  · rw [if_pos h]
    exact fun _ inScope => ⟨inScope, trivial⟩
  · rw [if_neg h]
    exact passed h

theorem get : Keeps S (MonadState.get : Build HandleTable) (HandleTable.InScope S) :=
  fun _ inScope => ⟨inScope, inScope⟩

end Build.Keeps

/-- A new handle is in scope. -/
theorem Handle.make_keeps {s : Signature} {p : Program} {variableArity : Bool}
    (complete : S.Complete) (fits : ∀ id, Handle.Scoped S ⟨id, s, p, variableArity⟩) :
    Build.Keeps S (Handle.make s p variableArity) S.handle := by
  intro t inScope
  refine ⟨fun i a found => ?_, (complete.handle_iff _).2 (fits _)⟩
  simp only [make, Array.getElem?_push] at found
  split at found
  · cases found
  · exact inScope i a found

theorem Blueprint.make_keeps {b : Blueprint} (complete : S.Complete) (fits : b.Scoped S) :
    Build.Keeps S b.make S.handle :=
  Handle.make_keeps complete fun _ => ⟨fits, nofun⟩

theorem Build.allocate_keeps {b : Checked Blueprint} (complete : S.Complete)
    (h : Ends Halt.Proper (Blueprint.Scoped S) b) : Build.Keeps S (.allocate b) S.handle := by
  cases b with
  | error halt => exact fun _ inScope => ⟨inScope, h⟩
  | ok blueprint => exact Blueprint.make_keeps complete h

theorem Build.accept_keeps {b : Except Failure Blueprint} (complete : S.Complete)
    (h : Ends (·.isStatic = true) (Blueprint.Scoped S) b) : Build.Keeps S (.accept b) S.handle :=
  allocate_keeps complete h.proper

namespace Handle

theorem remember_keeps (h : Handle) {a : Handle} (known : S.handle a) :
    Build.Keeps S (modify (·.remember h a)) fun _ => True := by
  refine fun t inScope => ⟨fun i b found => ?_, trivial⟩
  change (t.adapters.setIfInBounds h.id (some a))[i]? = some (some b) at found
  rw [Array.getElem?_setIfInBounds] at found
  split at found
  · split at found
    · cases found
      exact known
    · cases found
  · exact inScope i b found

theorem asType_keeps {h : Handle} {s : Signature} (complete : S.Complete) (known : S.handle h)
    (wf : s.WellFormed) : Build.Keeps S (h.asType s) S.handle := by
  unfold asType
  dsimp only
  split
  · exact .pure known
  refine Build.Keeps.get.bind fun t inScope => ?_
  split
  · next a found =>
    have remembered := (Option.filter_eq_some_iff.1 found).1
    exact .pure (inScope h.id a (Option.join_eq_some_iff.1 remembered))
  · refine .check fun convertible => ?_
    have lengths := Signature.arity_of_isConvertibleTo (by simpa using convertible)
    refine (Blueprint.make_keeps complete
      (Blueprint.adapting_scoped complete known wf lengths)).bind fun a adapter => ?_
    exact (remember_keeps h adapter).bind fun _ _ => .pure adapter

theorem viewAs_keeps {h : Handle} {s : Signature} (complete : S.Complete) (known : S.handle h)
    (wf : s.WellFormed) (strict : Bool) : Build.Keeps S (h.viewAs s strict) S.handle := by
  unfold viewAs
  dsimp only
  split
  · exact .pure known
  refine .check fun view => ?_
  have shape := Signature.shape_of_isViewableAs (by simpa using view)
  refine Blueprint.make_keeps complete ?_
  cases strict with
  | true => exact Blueprint.sharing_scoped complete known wf shape
  | false => exact Blueprint.converting_scoped known wf shape.1

/-! Handles that collect, and dropped arguments. -/

/-- A handle that is let collect ends with an array. -/
theorem asVariableArity_keeps {h : Handle} (complete : S.Complete) (known : S.handle h)
    (array : Kind) : Build.Keeps S (h.asVariableArity array) S.handle := by
  have fits := (complete.handle_iff h).1 known
  unfold asVariableArity
  refine .check fun trailing => ?_
  split
  · exact .pure known
  refine make_keeps complete fun id => ⟨fits.blueprint, fun _ => ?_⟩
  rw [Bool.not_eq_true, Bool.or_eq_false_iff, ← Bool.not_eq_true, Option.isNone_iff_eq_none,
    ← ne_eq, Option.ne_none_iff_exists'] at trailing
  obtain ⟨⟨element, isArray⟩, last⟩ := trailing
  cases hlast : h.signature.params.getLast? with
  | none =>
    rw [hlast] at last
    cases last
  | some k =>
    rw [hlast] at last
    have same : (k == array) = true := by simpa [bne] using last
    obtain ⟨own, eq⟩ := Kind.eq_arrayOf_of_beq (Kind.eq_arrayOf_of_element? isArray ▸ same)
    exact ⟨own, congrArg some eq⟩

theorem asFixedArity_keeps {h : Handle} (complete : S.Complete) (known : S.handle h) :
    Build.Keeps S h.asFixedArity S.handle := by
  unfold asFixedArity
  split
  · exact make_keeps complete fun _ => ⟨((complete.handle_iff h).1 known).blueprint, nofun⟩
  · exact .pure known

/-- A handle that collects has a trailing parameter, and collects no more values than a call can
pass. -/
theorem collectedCount_proper {h : Handle} {caller : Signature} (fits : h.Scoped S)
    (wf : caller.WellFormed) :
    Ends Halt.Proper
      (fun count => ∀ n, count = some n → n ≤ Signature.maxArity ∧
        ∃ array, h.signature.params[h.arity - 1]? = some array) (h.collectedCount caller) := by
  unfold collectedCount
  split
  · exact nofun
  · next collects =>
    obtain ⟨element, last⟩ := fits.trailing (by simpa using collects)
    rw [List.getLast?_eq_getElem?] at last
    refine Ends.bind (P := fun _ => True) (.ofSome ⟨_, last, trivial⟩) fun array _ => ?_
    dsimp only
    split
    · exact nofun
    · refine Ends.check trivial fun _ => ?_
      rintro n ⟨⟩
      have few : caller.arity ≤ Signature.maxArity := wf.arity_le
      exact ⟨Nat.le_trans (Nat.sub_le _ _) few, _, last⟩

theorem adaptedTo_keeps {h : Handle} {caller : Signature} (complete : S.Complete)
    (known : S.handle h) (wf : caller.WellFormed) :
    Build.Keeps S (h.adaptedTo caller) S.handle := by
  unfold adaptedTo
  refine (Build.Keeps.ofChecked
    (collectedCount_proper ((complete.handle_iff h).1 known) wf)).bind fun count spec => ?_
  split
  · next n =>
    obtain ⟨few, array, found⟩ := spec n rfl
    have own : h.arity ≤ Signature.maxArity :=
      ((complete.handle_iff h).1 known).blueprint.wellFormed.arity_le
    have room : Signature.maxArity + Signature.maxArity ≤ Blueprint.longestKindList := by decide
    have fewer : h.arity - 1 + n ≤ Blueprint.longestKindList := by omega
    refine Build.Keeps.bind (P := fun _ => True) (.ofChecked (.ofSome ⟨array, found, trivial⟩))
      fun array _ => ?_
    refine (Build.allocate_keeps complete (Blueprint.collector_scoped known array fewer)).bind
      fun collector made => ?_
    exact asType_keeps complete made wf
  · exact asType_keeps complete known wf

theorem dropArguments_keeps {h : Handle} (complete : S.Complete) (known : S.handle h) (pos : Nat)
    (kinds : List Kind) : Build.Keeps S (h.dropArguments pos kinds) S.handle := by
  unfold dropArguments
  refine (Build.Keeps.ofChecked (Blueprint.requirePositions_proper _ _ _)).bind fun _ _ => ?_
  split
  · exact .pure known
  · exact Build.allocate_keeps complete (Blueprint.insertIgnored_scoped known pos kinds)

theorem dropArgumentsToMatch_keeps {h : Handle} (complete : S.Complete) (known : S.handle h)
    (skip : Nat) (kinds : List Kind) (pos : Nat) :
    Build.Keeps S (h.dropArgumentsToMatch skip kinds pos) S.handle := by
  unfold dropArgumentsToMatch
  refine (Build.Keeps.ofChecked (Blueprint.requirePositions_proper _ _ _)).bind fun _ _ => ?_
  refine .check fun short => ?_
  refine (Build.Keeps.ofChecked (Signature.make_ends _ _).proper).bind fun _ _ => ?_
  refine (Build.Keeps.ofChecked (slice?_ends (by omega))).bind fun _ _ => ?_
  refine .check fun _ => ?_
  refine (dropArguments_keeps complete known skip _).bind fun leading made => ?_
  exact dropArguments_keeps complete made _ _

/-! Loops. -/

theorem loop_keeps {clauses : List LoopClause} (complete : S.Complete)
    (known : ∀ c ∈ clauses, ∀ h ∈ c.functions, S.handle h) :
    Build.Keeps S (loop clauses) S.handle :=
  Build.accept_keeps complete (Blueprint.loop_scoped known)

theorem constant_keeps (complete : S.Complete) (kind : Kind) {v : Value}
    (plain : v.isPlain = true) :
    Build.Keeps S (.accept (Blueprint.constant kind v)) S.handle :=
  Build.accept_keeps complete (Blueprint.constant_scoped kind (.plain plain))

theorem returning_keeps (complete : S.Complete) (kind : Kind) (skipped : List Kind) :
    Build.Keeps S (returning kind skipped) fun fini => ∀ h, fini = some h → S.handle h := by
  unfold returning
  split
  · exact .pure nofun
  · refine (Build.accept_keeps complete (Blueprint.identity_scoped kind)).bind fun same made => ?_
    refine (dropArguments_keeps complete made 0 skipped).bind fun fini made => ?_
    exact .pure fun h eq => Option.some.inj eq ▸ made

/-- The functions of a clause are in scope where each part is. -/
theorem functions_inScope {init step pred fini : Option Handle}
    (hinit : ∀ h, init = some h → S.handle h) (hstep : ∀ h, step = some h → S.handle h)
    (hpred : ∀ h, pred = some h → S.handle h) (hfini : ∀ h, fini = some h → S.handle h) :
    ∀ h ∈ (LoopClause.mk init step pred fini).functions, S.handle h := by
  intro h mem
  simp only [LoopClause.functions, LoopClause.bodyFunctions, List.mem_append,
    Option.mem_toList] at mem
  rcases mem with mem | (mem | mem) | mem
  · exact hinit h mem
  · exact hstep h mem
  · exact hpred h mem
  · exact hfini h mem

theorem some_inScope {f : Handle} (known : S.handle f) : ∀ h, some f = some h → S.handle h :=
  fun _ eq => Option.some.inj eq ▸ known

theorem none_inScope : ∀ h, (none : Option Handle) = some h → S.handle h := nofun

theorem whileLoop_keeps {init : Option Handle} {pred body : Handle} (complete : S.Complete)
    (hinit : ∀ h, init = some h → S.handle h) (hpred : S.handle pred) (hbody : S.handle body) :
    Build.Keeps S (whileLoop init pred body) S.handle := by
  unfold whileLoop
  refine (returning_keeps complete _ _).bind fun fini hfini => ?_
  refine loop_keeps complete ?_
  rw [List.forall_mem_singleton]
  exact functions_inScope hinit (some_inScope hbody) (some_inScope hpred) hfini

theorem doWhileLoop_keeps {init : Option Handle} {body pred : Handle} (complete : S.Complete)
    (hinit : ∀ h, init = some h → S.handle h) (hbody : S.handle body) (hpred : S.handle pred) :
    Build.Keeps S (doWhileLoop init body pred) S.handle := by
  unfold doWhileLoop
  refine (constant_keeps complete _ rfl).bind fun yes hyes => ?_
  refine (constant_keeps complete _ rfl).bind fun no hno => ?_
  refine (dropArguments_keeps complete hpred 0 _).bind fun pred hpred => ?_
  refine (constant_keeps complete _ rfl).bind fun constantly hconstantly => ?_
  refine (dropArguments_keeps complete hconstantly 0 _).bind fun always halways => ?_
  refine (Build.accept_keeps complete (Blueprint.identity_scoped .bool)).bind fun flag hflag => ?_
  refine (Build.allocate_keeps complete
    (Blueprint.branching_scoped complete hflag halways hpred)).bind fun checked hchecked => ?_
  refine (dropArguments_keeps complete hbody 0 _).bind fun step hstep => ?_
  refine (returning_keeps complete _ _).bind fun fini hfini => ?_
  refine loop_keeps complete ?_
  rw [List.forall_mem_cons, List.forall_mem_singleton]
  exact ⟨functions_inScope (some_inScope hyes) (some_inScope hno) none_inScope none_inScope,
    functions_inScope hinit (some_inScope hstep) (some_inScope hchecked) hfini⟩

theorem countedLoopRange_keeps {start stop : Handle} {init : Option Handle} {body : Handle}
    (complete : S.Complete) (hstart : S.handle start) (hstop : S.handle stop)
    (hinit : ∀ h, init = some h → S.handle h) (hbody : S.handle body) :
    Build.Keeps S (countedLoopRange start stop init body) S.handle := by
  unfold countedLoopRange
  dsimp only
  split
  · exact .refuse
  split
  · exact (Build.Keeps.ofChecked (Signature.make_ends _ _).proper).bind fun _ _ => .refuse
  refine (Build.accept_keeps complete Blueprint.intLess_scoped).bind fun less hless => ?_
  refine (Build.Keeps.ofChecked (Signature.make_ends _ _).proper).bind fun tested spec => ?_
  refine (Build.allocate_keeps complete
    (Blueprint.permuteArguments_scoped hless spec.2 _)).bind fun less hless => ?_
  refine (Build.accept_keeps complete Blueprint.intIncrement_scoped).bind
    fun increment hincrement => ?_
  refine (dropArguments_keeps complete hincrement 0 _).bind fun increment hincrement => ?_
  refine (dropArguments_keeps complete hbody 0 _).bind fun step hstep => ?_
  refine (returning_keeps complete _ _).bind fun fini hfini => ?_
  refine loop_keeps complete ?_
  rw [List.forall_mem_cons, List.forall_mem_cons, List.forall_mem_singleton]
  exact ⟨functions_inScope (some_inScope hstop) none_inScope none_inScope none_inScope,
    functions_inScope hinit (some_inScope hstep) none_inScope hfini,
    functions_inScope (some_inScope hstart) (some_inScope hincrement) (some_inScope hless)
      none_inScope⟩

theorem countedLoop_keeps {iterations : Handle} {init : Option Handle} {body : Handle}
    (complete : S.Complete) (hiterations : S.handle iterations)
    (hinit : ∀ h, init = some h → S.handle h) (hbody : S.handle body) :
    Build.Keeps S (countedLoop iterations init body) S.handle :=
  (constant_keeps complete _ rfl).bind fun _ hzero =>
    countedLoopRange_keeps complete hzero hiterations hinit hbody

theorem iteratedLoop_keeps {init : Option Handle} {body : Handle} (complete : S.Complete)
    (array : Kind) (hinit : ∀ h, init = some h → S.handle h) (hbody : S.handle body) :
    Build.Keeps S (iteratedLoop array init body) S.handle := by
  unfold iteratedLoop
  refine .check fun _ => ?_
  dsimp only
  split
  · exact (Build.Keeps.ofChecked (Signature.make_ends _ _).proper).bind fun _ _ => .refuse
  · next fed =>
    have inside : (variableKinds body.signature.ret).length < body.signature.params.length := by
      rw [Bool.not_eq_true, Bool.or_eq_false_iff, decide_eq_false_iff_not] at fed
      exact Nat.lt_of_not_le fed.1
    refine Build.Keeps.bind (P := fun _ => True)
      (.ofChecked (.ofSome ⟨_, List.getElem?_eq_getElem inside, trivial⟩)) fun element _ => ?_
    refine (Build.accept_keeps complete (Blueprint.arrayItem_scoped array)).bind
      fun getter hgetter => ?_
    refine (Build.Keeps.ofChecked (Signature.make_ends _ _).proper).bind fun item spec => ?_
    refine (asType_keeps complete hgetter spec.2).bind fun getter hgetter => ?_
    refine (Build.allocate_keeps complete
      (Blueprint.collectArguments_scoped hbody _ hgetter)).bind fun fetched hfetched => ?_
    refine (Build.Keeps.ofChecked (Signature.make_ends _ _).proper).bind fun stepped spec => ?_
    refine (Build.allocate_keeps complete
      (Blueprint.permuteArguments_scoped hfetched spec.2 _)).bind fun step hstep => ?_
    refine (Build.accept_keeps complete Blueprint.intLess_scoped).bind fun less hless => ?_
    refine (Build.accept_keeps complete (Blueprint.arrayLength_scoped array)).bind
      fun length hlength => ?_
    refine (Build.allocate_keeps complete
      (Blueprint.collectArguments_scoped hless 1 hlength)).bind fun inBounds hinBounds => ?_
    refine (dropArguments_keeps complete hinBounds 0 _).bind fun inBounds hinBounds => ?_
    refine (Build.accept_keeps complete Blueprint.intIncrement_scoped).bind
      fun increment hincrement => ?_
    refine (dropArguments_keeps complete hincrement 0 _).bind fun increment hincrement => ?_
    refine (returning_keeps complete _ _).bind fun fini hfini => ?_
    refine (constant_keeps complete _ rfl).bind fun zero hzero => ?_
    refine loop_keeps complete ?_
    rw [List.forall_mem_cons, List.forall_mem_singleton]
    exact ⟨functions_inScope hinit (some_inScope hstep) none_inScope hfini,
      functions_inScope (some_inScope hzero) (some_inScope hincrement) (some_inScope hinBounds)
        none_inScope⟩

end Handle

/-! All constructions. -/

/-- A construction that starts from what is in scope. A collector takes no longer a list of kinds
than a machine can hold, the other parameters of the target included. -/
def Construction.InScope (S : Scope) : Construction → Prop
  | .ofAction s action => s.WellFormed ∧ action.Scoped S s.arity
  | .identity _ | .zero _ | .throwException _ _ | .arrayItem _ | .arrayLength _ => True
  | .constant _ value => value.InScope S
  | .empty s => s.WellFormed
  | .asType target s | .viewAs target s _ | .permuteArguments target s _ =>
    S.handle target ∧ s.WellFormed
  | .asVariableArity target _ | .asFixedArity target | .asSpreader target _ _
  | .dropArguments target _ _ | .dropArgumentsToMatch target _ _ _ => S.handle target
  | .asCollector target _ count =>
    S.handle target ∧ target.arity - 1 + count ≤ Blueprint.longestKindList
  | .insertArguments target _ values => S.handle target ∧ ∀ v ∈ values, v.InScope S
  | .filterArguments target _ filters => S.handle target ∧ ∀ f, some f ∈ filters → S.handle f
  | .filterReturnValue target other | .collectArguments target _ other
  | .foldArguments target _ other | .tryFinally target other | .catchException target _ other =>
    S.handle target ∧ S.handle other
  | .guardWithTest test target fallback => S.handle test ∧ S.handle target ∧ S.handle fallback
  | .loop clauses => ∀ c ∈ clauses, ∀ h ∈ c.functions, S.handle h
  | .whileLoop init first second | .doWhileLoop init first second =>
    (∀ h, init = some h → S.handle h) ∧ S.handle first ∧ S.handle second
  | .countedLoop iterations init body =>
    S.handle iterations ∧ (∀ h, init = some h → S.handle h) ∧ S.handle body
  | .countedLoopRange start stop init body =>
    S.handle start ∧ S.handle stop ∧ (∀ h, init = some h → S.handle h) ∧ S.handle body
  | .iteratedLoop _ init body => (∀ h, init = some h → S.handle h) ∧ S.handle body
  | .dynamicInvoker site => S.site site

theorem Construction.InScope.mono {c : Construction} (grows : S.Grows S') (h : c.InScope S) :
    c.InScope S' := by
  have one : ∀ h, S.handle h → S'.handle h := grows.handle
  cases c with
  | ofAction => exact ⟨h.1, h.2.mono grows⟩
  | identity | zero | throwException | arrayItem | arrayLength => trivial
  | constant => exact Value.InScope.mono grows h
  | empty => exact h
  | asType | viewAs | permuteArguments | asCollector => exact ⟨one _ h.1, h.2⟩
  | asVariableArity | asFixedArity | asSpreader | dropArguments | dropArgumentsToMatch =>
    exact one _ h
  | insertArguments => exact ⟨one _ h.1, fun v mem => (h.2 v mem).mono grows⟩
  | filterArguments => exact ⟨one _ h.1, fun f mem => one _ (h.2 f mem)⟩
  | filterReturnValue | collectArguments | foldArguments | tryFinally | catchException =>
    exact ⟨one _ h.1, one _ h.2⟩
  | guardWithTest => exact ⟨one _ h.1, one _ h.2.1, one _ h.2.2⟩
  | loop => exact fun c hc f hf => one _ (h c hc f hf)
  | whileLoop | doWhileLoop => exact ⟨fun g eq => one _ (h.1 g eq), one _ h.2.1, one _ h.2.2⟩
  | countedLoop => exact ⟨one _ h.1, fun g eq => one _ (h.2.1 g eq), one _ h.2.2⟩
  | countedLoopRange =>
    exact ⟨one _ h.1, one _ h.2.1, fun g eq => one _ (h.2.2.1 g eq), one _ h.2.2.2⟩
  | iteratedLoop => exact ⟨fun g eq => one _ (h.1 g eq), one _ h.2⟩
  | dynamicInvoker => exact grows.site _ h

/-- Every construction from what is in scope makes a handle in scope, or is refused. -/
theorem Construction.build_keeps {c : Construction} (complete : S.Complete) (h : c.InScope S) :
    Build.Keeps S c.build S.handle := by
  cases c with
  | ofAction s action => exact Blueprint.make_keeps complete (Blueprint.ofAction_scoped h.1 h.2)
  | identity kind => exact Build.accept_keeps complete (Blueprint.identity_scoped kind)
  | constant kind value => exact Build.accept_keeps complete (Blueprint.constant_scoped kind h)
  | zero kind => exact Build.accept_keeps complete (Blueprint.zero_scoped kind)
  | empty s => exact Blueprint.make_keeps complete (Blueprint.empty_scoped h)
  | throwException ret exception =>
    exact Build.accept_keeps complete (Blueprint.throwException_scoped ret exception)
  | arrayItem array => exact Build.accept_keeps complete (Blueprint.arrayItem_scoped array)
  | arrayLength array => exact Build.accept_keeps complete (Blueprint.arrayLength_scoped array)
  | asType target s => exact Handle.asType_keeps complete h.1 h.2
  | viewAs target s strict => exact Handle.viewAs_keeps complete h.1 h.2 strict
  | asVariableArity target array => exact Handle.asVariableArity_keeps complete h array
  | asFixedArity target => exact Handle.asFixedArity_keeps complete h
  | asSpreader target array count =>
    exact Build.allocate_keeps complete (Blueprint.spreader_scoped h array count)
  | asCollector target array count =>
    exact Build.allocate_keeps complete (Blueprint.collector_scoped h.1 array h.2)
  | insertArguments target pos values =>
    exact Build.allocate_keeps complete (Blueprint.insertArguments_scoped h.1 pos h.2)
  | dropArguments target pos kinds => exact Handle.dropArguments_keeps complete h pos kinds
  | dropArgumentsToMatch target skip kinds pos =>
    exact Handle.dropArgumentsToMatch_keeps complete h skip kinds pos
  | permuteArguments target s reorder =>
    exact Build.allocate_keeps complete (Blueprint.permuteArguments_scoped h.1 h.2 reorder)
  | filterArguments target pos filters =>
    exact Build.allocate_keeps complete (Blueprint.filterArguments_scoped h.1 pos h.2)
  | filterReturnValue target filter =>
    exact Build.allocate_keeps complete (Blueprint.filterReturnValue_scoped complete h.1 h.2)
  | collectArguments target pos filter =>
    exact Build.allocate_keeps complete (Blueprint.collectArguments_scoped h.1 pos h.2)
  | foldArguments target pos combiner =>
    exact Build.allocate_keeps complete (Blueprint.foldArguments_scoped h.1 pos h.2)
  | guardWithTest test target fallback =>
    exact Build.allocate_keeps complete (Blueprint.branching_scoped complete h.1 h.2.1 h.2.2)
  | catchException target exception handler =>
    exact Build.allocate_keeps complete (Blueprint.catching_scoped complete h.1 exception h.2)
  | tryFinally target cleanup =>
    exact Build.allocate_keeps complete (Blueprint.finishing_scoped complete h.1 h.2)
  | loop clauses => exact Handle.loop_keeps complete h
  | whileLoop init pred body => exact Handle.whileLoop_keeps complete h.1 h.2.1 h.2.2
  | doWhileLoop init body pred => exact Handle.doWhileLoop_keeps complete h.1 h.2.1 h.2.2
  | countedLoop iterations init body => exact Handle.countedLoop_keeps complete h.1 h.2.1 h.2.2
  | countedLoopRange start stop init body =>
    exact Handle.countedLoopRange_keeps complete h.1 h.2.1 h.2.2.1 h.2.2.2
  | iteratedLoop array init body => exact Handle.iteratedLoop_keeps complete array h.1 h.2
  | dynamicInvoker site =>
    exact Blueprint.make_keeps complete
      (Blueprint.dynamicInvoker_scoped (complete.site_wellFormed site h) h)

end TypedHandles
