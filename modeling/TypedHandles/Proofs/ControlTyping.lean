import TypedHandles.Proofs.AdapterTyping

/-!
Adapters that branch, catch, clean up and loop are typed, and so are dynamic invokers: the handles
inside them fit together as their steps take them to.
-/
namespace TypedHandles

variable {F : ClassLibrary} {K : Known}

/-- A reference flows into the kinds above it. -/
theorem flowsInto_of_isSubtypeOf {s t : RefType} (hs : s.Over F.Has) (ht : t.Over F.Has)
    (h : s.isSubtypeOf t = true) : (Kind.ref s).FlowsInto F.Has (.ref t) := by
  refine Kind.flowsInto_of_isViewableAs (Kind.over_ref.2 hs) (Kind.over_ref.2 ht) ?_
  simp [Kind.isViewableAs, h]

theorem startsWith_iff {s : Signature} {kinds : List Kind} (hs : s.Valid F.Has)
    (given : ∀ k ∈ kinds, k.Over F.Has) : s.startsWith kinds = true ↔ kinds <+: s.params :=
  kinds_isPrefixOf_iff given hs.params_over

namespace Blueprint

theorem acceptsFirst_iff {s : Signature} {type : RefType} :
    acceptsFirst s type = true ↔
      ∃ param rest, s.params = .ref param :: rest ∧ type.isSubtypeOf param = true := by
  unfold acceptsFirst
  split
  · next param rest h => simp [h]
  · next h =>
    simp only [Bool.false_eq_true, false_iff, not_exists, not_and]
    exact fun param rest params => absurd params (h param rest)

theorem branching_ends (test target fallback : Handle) :
    Ends Halt.IsStatic
      (fun b => ∀ (F : ClassLibrary) (K : Known), Knowledge F K → K (.handle test) →
        K (.handle target) → K (.handle fallback) → b.Typed F K)
      (branching test target fallback) := by
  unfold branching
  refine Ends.check rfl fun same => ?_
  refine Ends.check rfl fun _ => ?_
  refine Ends.check rfl fun leading => ?_
  intro F K knowledge htest htarget hfallback
  have own := (knowledge.handle target htarget).valid
  have other := (knowledge.handle fallback hfallback).valid
  have asked := (knowledge.handle test htest).valid
  refine .of_program own (single_typed (.branch test target fallback) (.branch htest htarget
    hfallback (feeds_all F.Has target.signature) ?_ ?_))
  · exact (startsWith_iff own asked.params_over).1 (by simpa using leading)
  · exact (Signature.beq_iff other own).1 (by simpa [bne] using same)

theorem catching_ends (target : Handle) (exception : RefType) (handler : Handle) :
    Ends Halt.IsStatic
      (fun b => ∀ (F : ClassLibrary) (K : Known), Knowledge F K → K (.handle target) →
        K (.handle handler) → exception.Over F.Has → b.Typed F K)
      (catching target exception handler) := by
  unfold catching
  refine Ends.check rfl fun _ => ?_
  refine Ends.check rfl fun rets => ?_
  refine Ends.check rfl fun accepts => ?_
  refine Ends.check rfl fun leading => ?_
  intro F K knowledge htarget hhandler given
  have own := (knowledge.handle target htarget).valid
  have handles := (knowledge.handle handler hhandler).valid
  obtain ⟨param, rest, params, above⟩ := acceptsFirst_iff.1 (by simpa using accepts)
  have param_over : param.Over F.Has := Kind.over_ref.1 (handles.params_over _ (by simp [params]))
  have rest_over : ∀ k ∈ rest, k.Over F.Has :=
    fun k hk => handles.params_over k (by simp [params, hk])
  have rest_leads : target.signature.startsWith rest = true := by
    simpa [Signature.paramsFrom, params] using leading
  refine .of_program own (single_typed (.catching target exception handler) (.catching htarget
    hhandler (feeds_all F.Has target.signature) given params
    (flowsInto_of_isSubtypeOf given param_over above) ?_ ?_))
  · exact (startsWith_iff own rest_over).1 rest_leads
  · exact (Kind.beq_iff handles.ret_over own.ret_over).1 (by simpa [bne] using rets)

theorem finishing_ends (target cleanup : Handle) :
    Ends Halt.IsStatic
      (fun b => ∀ (F : ClassLibrary) (K : Known), Knowledge F K → K (.handle target) →
        K (.handle cleanup) → b.Typed F K)
      (finishing target cleanup) := by
  unfold finishing
  refine Ends.check rfl fun rets => ?_
  refine Ends.check rfl fun accepts => ?_
  refine Ends.check rfl fun results => ?_
  refine Ends.check rfl fun leading => ?_
  intro F K knowledge htarget hcleanup
  have own := (knowledge.handle target htarget).valid
  have cleans := (knowledge.handle cleanup hcleanup).valid
  obtain ⟨param, rest, params, above⟩ := acceptsFirst_iff.1 (by simpa using accepts)
  have param_over : param.Over F.Has := Kind.over_ref.1 (cleans.params_over _ (by simp [params]))
  have first : Kind.throwable.FlowsInto F.Has (.ref param) :=
    flowsInto_of_isSubtypeOf (by simp [RefType.Over]) param_over above
  have ret : cleanup.signature.ret = target.signature.ret :=
    (Kind.beq_iff cleans.ret_over own.ret_over).1 (by simpa [bne] using rets)
  have rest_over : ∀ k ∈ rest, k.Over F.Has :=
    fun k hk => cleans.params_over k (by simp [params, hk])
  have step : ∃ others, rest = (if target.signature.ret.isVoid then [] else
      [target.signature.ret]) ++ others ∧ target.signature.startsWith others = true := by
    cases void : target.signature.ret.isVoid with
    | true =>
      exact ⟨rest, rfl, by simpa [Signature.paramsFrom, Signature.returnsVoid, params, void]
        using leading⟩
    | false =>
      cases rest with
      | nil =>
        simp only [Signature.returnsVoid, void, params] at results
        exact absurd rfl results
      | cons k others =>
        have same : (k == target.signature.ret) = true := by
          simpa [Signature.returnsVoid, void, params, bne] using results
        have eq := (Kind.beq_iff (rest_over k (by simp)) own.ret_over).1 same
        refine ⟨others, by simp [eq], ?_⟩
        simpa [Signature.paramsFrom, Signature.returnsVoid, params, void] using leading
  obtain ⟨others, split, leads⟩ := step
  have others_over : ∀ k ∈ others, k.Over F.Has :=
    fun k hk => rest_over k (by simp [split, hk])
  exact .of_program own (single_typed (.finishing target cleanup) (.finishing htarget hcleanup
    (feeds_all F.Has target.signature) (by rw [params, split]; rfl) first
    ((startsWith_iff own others_over).1 leads) ret))

theorem dynamicInvoker_typed {site : CallSite} (knowledge : Knowledge F K)
    (known : K (.callSite site)) : (dynamicInvoker site).Typed F K :=
  .of_program (knowledge.site site known)
    (single_typed (.dynamic site) (.dynamic known (feeds_all F.Has site.signature)))

end Blueprint

/-! Loops. -/

namespace LoopPlan

theorem mem_longest {lists : List (List Kind)} {k : Kind} (h : k ∈ longest lists) :
    ∃ l ∈ lists, k ∈ l := by
  have fold : ∀ (best : List Kind) (lists : List (List Kind)),
      lists.foldl (fun best list => if best.length ≤ list.length then list else best) best = best ∨
        lists.foldl (fun best list => if best.length ≤ list.length then list else best) best ∈
          lists := by
    intro best lists
    induction lists generalizing best with
    | nil => exact .inl rfl
    | cons l rest ih =>
      rw [List.foldl_cons]
      split
      · rcases ih l with same | mem
        · exact .inr (by rw [same]; exact List.mem_cons_self)
        · exact .inr (List.mem_cons_of_mem l mem)
      · exact (ih best).imp_right (List.mem_cons_of_mem l)
  rcases fold [] lists with empty | mem
  · rw [longest, empty] at h
    cases h
  · exact ⟨_, mem, h⟩

/-- The parameters of a loop are parameters of its functions. -/
theorem outerParameters_ends (clauses : List LoopClause) (carried : List Kind) :
    Ends (·.isStatic = true)
      (fun outer => ∀ k ∈ outer, ∃ c ∈ clauses, ∃ f ∈ c.functions, k ∈ f.signature.params)
      (outerParameters clauses carried) := by
  unfold outerParameters
  dsimp only
  split
  · intro k hk
    obtain ⟨l, hl, hk⟩ := mem_longest hk
    obtain ⟨f, hf, rfl⟩ := List.mem_map.1 hl
    obtain ⟨c, hc, hinit⟩ := List.mem_filterMap.1 hf
    exact ⟨c, hc, f, by simp [LoopClause.functions, hinit], hk⟩
  · split
    · exact List.forall_mem_nil _
    · split
      · refine (Signature.make_ends _ _).bind fun _ _ => ?_
        refine (Signature.make_ends _ _).bind fun _ _ => ?_
        rfl
      · intro k hk
        obtain ⟨l, hl, hk⟩ := mem_longest (List.mem_of_mem_drop hk)
        obtain ⟨f, hf, rfl⟩ := List.mem_map.1 hl
        obtain ⟨c, hc, hbody⟩ := List.mem_flatMap.1 hf
        exact ⟨c, hc, f, List.mem_append_right _ hbody, hk⟩

theorem requireReturns_ends (c : LoopClause) :
    Ends (·.isStatic = true)
      (fun _ => ∀ init step, c.init = some init → c.step = some step →
        (init.signature.ret == step.signature.ret) = true) (requireReturns c) := by
  unfold requireReturns
  split
  · next init step hinit hstep =>
    split
    · rfl
    · next same =>
      intro i s hi hs
      rw [hinit] at hi
      rw [hstep] at hs
      cases hi
      cases hs
      simpa [bne] using same
  · next unmatched =>
    intro i s hi hs
    exact absurd hs (unmatched i s hi)

/-- What is checked of one clause: what its functions take is there. -/
structure ClauseFits (outer frame : List Kind) (c : LoopClause) : Prop where
  init : ∀ init, c.init = some init → init.signature.params.isPrefixOf outer = true
  body : ∀ f ∈ c.bodyFunctions, f.signature.params.isPrefixOf frame = true

/-- A clause that passes its checks fits, and the clause that yields the result is chosen. -/
theorem checkClause_ends (outer frame : List Kind) (frameSignature : Signature)
    (result : Option Nat) (index : Nat) (c : LoopClause) :
    Ends (·.isStatic = true)
      (fun next => ClauseFits outer frame c ∧
        chooseResult frameSignature result index c = .ok next)
      (checkClause outer frame frameSignature result index c) := by
  unfold checkClause
  refine Ends.bind (P := fun _ => ∀ init, c.init = some init →
    init.signature.params.isPrefixOf outer = true) ?_ fun _ hinit => ?_
  · unfold checkInit
    split
    · next none =>
      intro init some
      rw [none] at some
      cases some
    · next found =>
      split
      · next leads =>
        intro init some
        rw [found] at some
        cases some
        exact leads
      · exact (Signature.make_ends _ _).bind fun _ _ => rfl
  refine Ends.bind (P := fun _ => ∀ f ∈ c.bodyFunctions,
    f.signature.params.isPrefixOf frame = true) ?_ fun _ hbody => ?_
  · unfold checkBody
    split
    · next found => simpa [Ends] using List.find?_eq_none.1 found
    · rfl
  refine Ends.bind (P := fun _ => True) ?_ fun _ _ => ?_
  · unfold checkPredicate
    split
    · trivial
    · split <;> trivial
  · refine Ends.intro (fun e refused => ?_) fun _ chosen => ⟨⟨hinit, hbody⟩, chosen⟩
    unfold chooseResult at refused
    split at refused
    · cases refused
    · split at refused
      · cases refused
      · split at refused
        · cases refused
          rfl
        · cases refused

/-- The clause that yields the result, chosen clause by clause. -/
def chooseResults (frameSignature : Signature) (result : Option Nat) (index : Nat) :
    List LoopClause → Except Failure (Option Nat)
  | [] => .ok result
  | c :: rest => do
    let next ← chooseResult frameSignature result index c
    chooseResults frameSignature next (index + 1) rest

theorem checkClauses_ends (outer frame : List Kind) (frameSignature : Signature)
    (result : Option Nat) (index : Nat) (clauses : List LoopClause) :
    Ends (·.isStatic = true)
      (fun last => (∀ c ∈ clauses, ClauseFits outer frame c) ∧
        chooseResults frameSignature result index clauses = .ok last)
      (checkClauses outer frame frameSignature result index clauses) := by
  induction clauses generalizing result index with
  | nil => exact ⟨List.forall_mem_nil _, rfl⟩
  | cons c rest ih =>
    unfold checkClauses
    refine (checkClause_ends outer frame frameSignature result index c).bind fun result here => ?_
    refine (ih result (index + 1)).imp fun _ others => ?_
    refine ⟨List.forall_mem_cons.2 ⟨here.1, others.1⟩, ?_⟩
    rw [chooseResults, here.2]
    exact others.2

/-- What is known of an accepted loop that takes the parameters `outer`. -/
structure Accepted (clauses : List LoopClause) (outer : List Kind) (result : Option Nat) :
    Prop where
  params : ∀ k ∈ outer, ∃ c ∈ clauses, ∃ f ∈ c.functions, k ∈ f.signature.params
  fits : ∀ c ∈ clauses, ClauseFits outer (carriedKinds clauses ++ outer) c
  returns : ∀ c ∈ clauses, ∀ init step, c.init = some init → c.step = some step →
    (init.signature.ret == step.signature.ret) = true
  chosen : ∃ frameSignature, chooseResults frameSignature none 0 clauses = .ok result
  wf : Signature.WellFormed ⟨resultKind clauses result, outer⟩

/-- The loop of clauses over the parameters `outer`. -/
def blueprint (clauses : List LoopClause) (outer : List Kind) (result : Option Nat) : Blueprint :=
  let signature : Signature := ⟨resultKind clauses result, outer⟩
  ⟨signature, .single signature
    (.loop ⟨clauses, assignSlots 0 clauses, carriedKinds clauses, result⟩)⟩

end LoopPlan

/-- A loop was accepted by all checks, and runs its clauses. -/
theorem Blueprint.loop_accepted (clauses : List LoopClause) :
    Ends (·.isStatic = true)
      (fun b => ∃ outer result, LoopPlan.Accepted clauses outer result ∧
        b = LoopPlan.blueprint clauses outer result)
      (Blueprint.loop clauses) := by
  unfold Blueprint.loop
  refine Ends.checkFailure rfl fun _ => ?_
  dsimp only
  split
  · rfl
  refine (mapM_ends fun c _ =>
    (LoopPlan.requireReturns_ends c).imp fun _ _ => trivial).bind fun _ returns => ?_
  refine (LoopPlan.outerParameters_ends _ _).bind fun outer params => ?_
  refine (Signature.make_ends _ _).bind fun frameSignature _ => ?_
  refine (LoopPlan.checkClauses_ends _ _ _ _ _ _).bind fun result checked => ?_
  refine (Signature.make_ends _ _).bind fun s => ?_
  rintro ⟨rfl, wf⟩
  refine ⟨outer, result, ⟨params, checked.1, fun c hc => ?_, ⟨frameSignature, checked.2⟩, wf⟩,
    rfl⟩
  obtain ⟨i, inside, rfl⟩ := List.getElem_of_mem hc
  exact (LoopPlan.requireReturns_ends _).of_eq_ok
    (returns.get inside (by rw [← returns.length_eq]; exact inside))

/-- All functions of some clauses are at hand. -/
def ClausesKnown (K : Known) (clauses : List LoopClause) : Prop :=
  ∀ c ∈ clauses, ∀ h ∈ c.functions, K (.handle h)

theorem mem_functions_of_init {c : LoopClause} {init : Handle} (h : c.init = some init) :
    init ∈ c.functions := by
  simp [LoopClause.functions, h]

theorem mem_functions_of_body {c : LoopClause} {f : Handle} (h : f ∈ c.bodyFunctions) :
    f ∈ c.functions :=
  List.mem_append_right _ h

theorem mem_bodyFunctions_of_step {c : LoopClause} {step : Handle} (h : c.step = some step) :
    step ∈ c.bodyFunctions := by
  simp [LoopClause.bodyFunctions, h]

theorem mem_bodyFunctions_of_pred {c : LoopClause} {pred : Handle} (h : c.pred = some pred) :
    pred ∈ c.bodyFunctions := by
  simp [LoopClause.bodyFunctions, h]

theorem mem_bodyFunctions_of_fini {c : LoopClause} {fini : Handle} (h : c.fini = some fini) :
    fini ∈ c.bodyFunctions := by
  simp [LoopClause.bodyFunctions, h]

/-- The variable of a clause has the kind of a function that is at hand, or none. -/
theorem variableKind_over {clauses : List LoopClause} (knowledge : Knowledge F K)
    (known : ClausesKnown K clauses) {c : LoopClause} (hc : c ∈ clauses) :
    c.variableKind.Over F.Has := by
  cases hstep : c.step with
  | some step =>
    have mem := mem_functions_of_body (mem_bodyFunctions_of_step hstep)
    simpa only [LoopClause.variableKind, hstep] using
      (knowledge.handle step (known c hc step mem)).valid.ret_over
  | none =>
    cases hinit : c.init with
    | some init =>
      have mem := mem_functions_of_init hinit
      simpa only [LoopClause.variableKind, hstep, hinit] using
        (knowledge.handle init (known c hc init mem)).valid.ret_over
    | none => simp [LoopClause.variableKind, hstep, hinit]

theorem carriedKinds_over {clauses : List LoopClause} (knowledge : Knowledge F K)
    (known : ClausesKnown K clauses) : ∀ k ∈ LoopPlan.carriedKinds clauses, k.Over F.Has := by
  intro k hk
  obtain ⟨mem, -⟩ := List.mem_filter.1 hk
  obtain ⟨c, hc, rfl⟩ := List.mem_map.1 mem
  exact variableKind_over knowledge known hc

theorem resultKind_over {clauses : List LoopClause} (knowledge : Knowledge F K)
    (known : ClausesKnown K clauses) (result : Option Nat) :
    (LoopPlan.resultKind clauses result).Over F.Has := by
  unfold LoopPlan.resultKind
  split
  · next fini found =>
    obtain ⟨c, hc, hfini⟩ := Option.bind_eq_some_iff.1 found
    obtain ⟨index, -, hindex⟩ := Option.bind_eq_some_iff.1 hc
    have mem := mem_functions_of_body (mem_bodyFunctions_of_fini hfini)
    exact (knowledge.handle _
      (known c (List.mem_of_getElem? hindex) _ mem)).valid.ret_over
  · simp

theorem Blueprint.loop_ends (clauses : List LoopClause) :
    Ends (·.isStatic = true)
      (fun b => ∀ (F : ClassLibrary) (K : Known), Knowledge F K → ClausesKnown K clauses →
        b.Typed F K)
      (Blueprint.loop clauses) := by
  refine (Blueprint.loop_accepted clauses).imp ?_
  rintro _ ⟨outer, result, accepted, rfl⟩ F K knowledge known
  have outer_over : ∀ k ∈ outer, k.Over F.Has := by
    intro k hk
    obtain ⟨c, hc, f, hf, mem⟩ := accepted.params k hk
    exact (knowledge.handle f (known c hc f hf)).valid.params_over k mem
  have frame_over : ∀ k ∈ LoopPlan.carriedKinds clauses ++ outer, k.Over F.Has := by
    intro k hk
    rcases List.mem_append.1 hk with hk | hk
    · exact carriedKinds_over knowledge known k hk
    · exact outer_over k hk
  refine .of_program ⟨accepted.wf, resultKind_over knowledge known result, outer_over⟩
    (single_typed (.loop ⟨clauses, LoopPlan.assignSlots 0 clauses, LoopPlan.carriedKinds clauses,
      result⟩) (.loop ?_ (feeds_all F.Has ⟨LoopPlan.resultKind clauses result, outer⟩)))
  refine ⟨rfl, rfl, known, fun c hc init hinit => ?_, fun c hc f hf => ?_,
    fun c hc init hinit => ?_, rfl⟩
  · have valid := (knowledge.handle init
      (known c hc init (mem_functions_of_init hinit))).valid
    exact (kinds_isPrefixOf_iff valid.params_over outer_over).1
      ((accepted.fits c hc).init init hinit)
  · have valid := (knowledge.handle f (known c hc f (mem_functions_of_body hf))).valid
    exact (kinds_isPrefixOf_iff valid.params_over frame_over).1 ((accepted.fits c hc).body f hf)
  · cases hstep : c.step with
    | none => simp [LoopClause.variableKind, hstep, hinit]
    | some step =>
      have initValid := (knowledge.handle init
        (known c hc init (mem_functions_of_init hinit))).valid
      have stepValid := (knowledge.handle step (known c hc step
        (mem_functions_of_body (mem_bodyFunctions_of_step hstep)))).valid
      have same := accepted.returns c hc init step hinit hstep
      simpa [LoopClause.variableKind, hstep] using
        (Kind.beq_iff initValid.ret_over stepValid.ret_over).1 same
end TypedHandles
