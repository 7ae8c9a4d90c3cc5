import TypedHandles.Proofs.OwnedCells
import TypedHandles.Machine.Run

/-!
Code that runs takes a path. Whatever a frame holds refers to what exists, since arguments and
constants do and every step yields such a value; a cell is written into by an action that sets a
field and by a cleanup that fails, and by nothing else.
-/
namespace TypedHandles

variable {W L : Prop} {s t : State} {run : Runner} {args frame : List Value}

theorem forall_within_mono (grows : s.Grows t) (h : ∀ v ∈ args, v.Within W s) :
    ∀ v ∈ args, v.Within W t :=
  fun v mem => (h v mem).mono grows

/-- Code that refers to what exists. -/
def Code.Within (W : Prop) (s : State) : Code → Prop
  | .program _ p => p.Within W s
  | .action a => a.Within W s

/-- A way to run code that takes a path on whatever exists, now and later. -/
def Runner.Stays (W : Prop) (s : State) (run : Runner) : Prop :=
  ∀ (t : State) (code : Code) (args : List Value), s.Grows t → code.Within W t →
    (∀ v ∈ args, v.Within W t) → Exec.Stays W W t (run code args) fun u v => v.Within W u

theorem Runner.Stays.mono (grows : s.Grows t) (stays : run.Stays W s) : run.Stays W t :=
  fun u code args grows' => stays u code args (grows.trans grows')

theorem Runner.Stays.call (stays : run.Stays W s) {h : Handle} (within : h.Within W s)
    (given : ∀ v ∈ args, v.Within W s) :
    Exec.Stays W W s (run.call h args) fun t v => v.Within W t :=
  stays s _ args (.refl s) (Handle.within_iff.1 within) given

/-! Loops. -/

theorem leading_stays {values : List Value} (given : ∀ v ∈ values, v.Within W s) (count : Nat) :
    Exec.Stays W L s (leading values count) fun t vs => ∀ v ∈ vs, v.Within W t := by
  refine .ofOption fun t vs grows found => forall_within_mono grows fun v mem => ?_
  unfold slice? at found
  split at found <;> cases found
  exact given v (List.mem_of_mem_drop (List.mem_of_mem_take mem))

namespace LoopPlan

theorem onLeading_stays (stays : run.Stays W s) {h : Handle} (within : h.Within W s)
    {values : List Value} (given : ∀ v ∈ values, v.Within W s) :
    Exec.Stays W W s (onLeading run.call h values) fun t v => v.Within W t :=
  (leading_stays given h.arity).bind fun _ _ grows taken =>
    (stays.mono grows).call (within.mono grows) taken

/-- Clauses whose functions refer to what exists. -/
abbrev ClausesWithin (W : Prop) (s : State) (clauses : List LoopClause) : Prop :=
  ∀ c ∈ clauses, ∀ f ∈ c.functions, f.Within W s

theorem ClausesWithin.mono {clauses : List LoopClause} (grows : s.Grows t)
    (h : ClausesWithin W s clauses) : ClausesWithin W t clauses :=
  fun c mem f used => (h c mem f used).mono grows

theorem zip_within {clauses : List LoopClause} (h : ClausesWithin W s clauses)
    (slots : List (Option Slot)) : ∀ c ∈ clauses.zip slots, ∀ f ∈ c.1.functions, f.Within W s :=
  fun c mem => h c.1 (List.of_mem_zip mem).1

theorem start_stays (stays : run.Stays W s) (carried : List Kind)
    (given : ∀ v ∈ args, v.Within W s) {clauses : List (LoopClause × Option Slot)}
    (within : ∀ c ∈ clauses, ∀ f ∈ c.1.functions, f.Within W s) :
    Exec.Stays W W s (start run.call carried args clauses) fun t vs => ∀ v ∈ vs, v.Within W t := by
  induction clauses generalizing s with
  | nil => exact .pure fun _ _ => List.forall_mem_nil _
  | cons entry rest ih =>
    obtain ⟨c, slot⟩ := entry
    obtain ⟨here, others⟩ := List.forall_mem_cons.1 within
    have initial : Exec.Stays W W s (c.init.mapM fun init => onLeading run.call init args)
        fun t initial => ∀ v ∈ initial, v.Within W t := by
      cases found : c.init with
      | none => exact .pure fun _ _ => nofun
      | some init =>
        have used : init.Within W s := here init (by simp [LoopClause.functions, found])
        exact (onLeading_stays stays used given).bind fun t v _ made =>
          .pure fun u grows w eq => Option.some.inj eq ▸ made.mono grows
    have next : ∀ (t : State) (first : List Value), s.Grows t → (∀ v ∈ first, v.Within W t) →
        Exec.Stays W W t (do return first ++ (← start run.call carried args rest))
          fun t vs => ∀ v ∈ vs, v.Within W t := by
      intro t first grows made
      have others : ∀ c ∈ rest, ∀ f ∈ c.1.functions, f.Within W t :=
        fun c mem f used => (others c mem f used).mono grows
      refine (ih (stays.mono grows) (forall_within_mono grows given) others).bind
        fun u vs grows' madeLater => .pure fun w grows'' => ?_
      exact List.forall_mem_append.2 ⟨forall_within_mono (grows'.trans grows'') made,
        forall_within_mono grows'' madeLater⟩
    unfold start
    refine initial.bind fun t v grows made => ?_
    cases slot with
    | none => exact next t [] grows (List.forall_mem_nil _)
    | some slot =>
      cases v with
      | some w => exact next t [w] grows (List.forall_mem_singleton.2 (made w rfl))
      | none =>
        refine Exec.Stays.bind (P := fun _ _ => True)
          (.ofOption fun _ _ _ _ => trivial) fun u k grows' _ => ?_
        exact next u [.zero k] (grows.trans grows')
          (List.forall_mem_singleton.2 (Value.within_zero k))

theorem goesOn_stays (stays : run.Stays W s) (given : ∀ v ∈ frame, v.Within W s)
    {clauses : List LoopClause} (within : ClausesWithin W s clauses) :
    Exec.Stays W W s (goesOn run.call frame clauses) fun _ _ => True := by
  induction clauses generalizing s with
  | nil => exact .pure fun _ _ => trivial
  | cons c rest ih =>
    obtain ⟨here, others⟩ := List.forall_mem_cons.1 within
    unfold goesOn
    split
    · exact ih stays given others
    · next pred found =>
      have used : pred.Within W s :=
        here pred (by simp [LoopClause.functions, LoopClause.bodyFunctions, found])
      refine (onLeading_stays stays used given).bind fun t v grows _ => ?_
      split
      · exact ih (stays.mono grows) (forall_within_mono grows given)
          (ClausesWithin.mono grows others)
      · exact .pure fun _ _ => trivial

theorem store_stays (slot : Slot) {v : Value} (given : ∀ v ∈ frame, v.Within W s)
    (within : v.Within W s) :
    Exec.Stays W L s (store frame slot v) fun t vs => ∀ v ∈ vs, v.Within W t := by
  unfold store
  split
  · refine .pure fun t grows w mem => Value.Within.mono grows ?_
    obtain old | rfl := List.mem_or_eq_of_mem_set mem
    · exact given w old
    · exact within
  · exact .halt fun _ _ => trivial

theorem advance_stays (stays : run.Stays W s) (given : ∀ v ∈ frame, v.Within W s)
    {clauses : List (LoopClause × Option Slot)}
    (within : ∀ c ∈ clauses, ∀ f ∈ c.1.functions, f.Within W s) :
    Exec.Stays W W s (advance run.call frame clauses) fun t vs => ∀ v ∈ vs, v.Within W t := by
  induction clauses generalizing s frame with
  | nil => exact .pure fun _ grows => forall_within_mono grows given
  | cons entry rest ih =>
    obtain ⟨c, slot⟩ := entry
    obtain ⟨here, others⟩ := List.forall_mem_cons.1 within
    have later : ∀ {t : State}, s.Grows t → ∀ c ∈ rest, ∀ f ∈ c.1.functions, f.Within W t :=
      fun grows c mem f used => (others c mem f used).mono grows
    unfold advance
    split
    · exact ih stays given others
    · next step found =>
      have used : step.Within W s :=
        here step (by simp [LoopClause.functions, LoopClause.bodyFunctions, found])
      refine (onLeading_stays stays used given).bind fun t v grows made => ?_
      have given := forall_within_mono grows given
      cases slot with
      | none => exact ih (stays.mono grows) given (later grows)
      | some slot =>
        refine (store_stays slot given made).bind fun u vs grows' stored => ?_
        exact ih (stays.mono (grows.trans grows')) stored (later (grows.trans grows'))

theorem finish_stays (stays : run.Stays W s) (given : ∀ v ∈ frame, v.Within W s)
    (chosen : Option Nat) (index : Nat) {result : Value} (made : result.Within W s)
    {clauses : List LoopClause} (within : ClausesWithin W s clauses) :
    Exec.Stays W W s (finish run.call frame chosen index result clauses)
      fun t v => v.Within W t := by
  induction clauses generalizing s index result with
  | nil => exact .pure fun _ grows => made.mono grows
  | cons c rest ih =>
    obtain ⟨here, others⟩ := List.forall_mem_cons.1 within
    unfold finish
    split
    · exact ih stays given _ made others
    · next fini found =>
      have used : fini.Within W s :=
        here fini (by simp [LoopClause.functions, LoopClause.bodyFunctions, found])
      refine (onLeading_stays stays used given).bind fun t v grows ended => ?_
      refine ih (stays.mono grows) (forall_within_mono grows given) _ ?_
        (ClausesWithin.mono grows others)
      split
      · exact ended
      · exact made.mono grows

theorem rounds_stays (stays : run.Stays W s) (plan : LoopPlan) (limit : Nat)
    (given : ∀ v ∈ frame, v.Within W s) (within : ClausesWithin W s plan.clauses) :
    Exec.Stays W W s (rounds run.call plan limit frame) fun t v => v.Within W t := by
  induction limit generalizing s frame with
  | zero => exact .halt fun _ _ => trivial
  | succ n ih =>
    unfold rounds
    refine (goesOn_stays stays given within).bind fun t another grows _ => ?_
    have given := forall_within_mono grows given
    have stays := stays.mono grows
    have within := within.mono grows
    split
    · refine (advance_stays stays given (zip_within within plan.slots)).bind
        fun u vs grows' made => ?_
      exact ih (stays.mono grows') made (within.mono grows')
    · exact finish_stays stays given plan.result 0 (Value.within_of_isPlain rfl) within

theorem run_stays (stays : run.Stays W s) (plan : LoopPlan) (limit : Nat)
    (given : ∀ v ∈ args, v.Within W s) (within : ClausesWithin W s plan.clauses) :
    Exec.Stays W W s (plan.run run.call limit args) fun t v => v.Within W t := by
  refine (start_stays stays plan.carried given (zip_within within plan.slots)).bind
    fun t started grows made => ?_
  exact rounds_stays (stays.mono grows) plan limit
    (List.forall_mem_append.2 ⟨made, forall_within_mono grows given⟩) (within.mono grows)

end LoopPlan

/-! Steps and programs. -/

namespace Step

variable {target : Handle}

theorem gather_stays (given : ∀ v ∈ frame, v.Within W s) (slots : List Slot) :
    Exec.Stays W L s (gather frame slots) fun t vs => ∀ v ∈ vs, v.Within W t := by
  induction slots generalizing s with
  | nil => exact .pure fun _ _ => List.forall_mem_nil _
  | cons slot rest ih =>
    refine Exec.Stays.bind (P := fun t v => v.Within W t)
      (.ofOption fun t v grows found => (given v (List.mem_of_getElem? found)).mono grows) ?_
    intro t v grows made
    refine (ih (forall_within_mono grows given)).bind fun u vs grows' others => ?_
    exact .pure fun w grows'' => List.forall_mem_cons.2
      ⟨made.mono (grows'.trans grows''), forall_within_mono grows'' others⟩

theorem checkResult_stays (kind : Kind) {v : Value} (within : v.Within W s) :
    Exec.Stays W L s (checkResult kind v) fun t w => w.Within W t := by
  unfold checkResult
  split
  · exact .pure fun _ _ => Value.within_of_isPlain rfl
  · split
    · exact .pure fun _ grows => within.mono grows
    · exact .refuse rfl

theorem spreadItem_stays (index length : Nat) {v : Value} (within : v.Within W s) :
    Exec.Stays W L s (spreadItem index length v) fun t w => w.Within W t := by
  unfold spreadItem
  split
  · next items =>
    split
    · exact .ofOption fun t w grows found =>
        (Value.within_array_iff.1 within w (List.mem_of_getElem? found)).mono grows
    · exact .refuse rfl
  · exact .refuse rfl

theorem runBranch_stays (stays : run.Stays W s) {test fallback : Handle}
    (testWithin : test.Within W s) (within : target.Within W s)
    (fallbackWithin : fallback.Within W s) (given : ∀ v ∈ args, v.Within W s) :
    Exec.Stays W W s (runBranch run test target fallback args) fun t v => v.Within W t := by
  unfold runBranch
  refine (leading_stays given test.arity).bind fun t _ grows taken => ?_
  refine ((stays.mono grows).call (testWithin.mono grows) taken).bind fun u _ grows' _ => ?_
  have grows := grows.trans grows'
  split
  · exact (stays.mono grows).call (within.mono grows) (forall_within_mono grows given)
  · exact (stays.mono grows).call (fallbackWithin.mono grows) (forall_within_mono grows given)

theorem runCatching_stays (stays : run.Stays W s) (within : target.Within W s)
    (exception : RefType) {handler : Handle} (handlerWithin : handler.Within W s)
    (given : ∀ v ∈ args, v.Within W s) :
    Exec.Stays W W s (runCatching run target exception handler args)
      fun t v => v.Within W t := by
  unfold runCatching
  refine (stays.call within given).attempt.bind fun t answer grows ends => ?_
  split
  · exact .pure fun _ grows' => Value.Within.mono grows' ends
  · next x =>
    have made : x.id < t.suppressed.size := ends x rfl
    split
    · split
      · exact .halt fun _ _ => trivial
      · refine (leading_stays (forall_within_mono grows given) _).bind
          fun u taken grows' takenWithin => ?_
        have grows := grows.trans grows'
        refine (stays.mono grows).call (handlerWithin.mono grows)
          (List.forall_mem_cons.2 ⟨?_, takenWithin⟩)
        exact Value.within_throwable_iff.2 (Nat.lt_of_lt_of_le made grows'.throwables)
    · exact .thrown made
  · exact .ofChecked fun _ grows' => Failure.Within.mono grows' ends

theorem outcome_within (ret : Kind) {failure : Option Throwable}
    (made : ∀ x ∈ failure, x.id < s.suppressed.size) {result : Value}
    (within : result.Within W s) : ∀ v ∈ outcome ret failure result, v.Within W s := by
  refine List.forall_mem_cons.2 ⟨?_, ?_⟩
  · cases failure with
    | none => exact Value.within_of_isPlain rfl
    | some x => exact Value.within_throwable_iff.2 (made x rfl)
  · split
    · exact List.forall_mem_nil _
    · exact List.forall_mem_singleton.2 within

/-- When a cleanup fails, what it threw may come to suppress what the handle threw. -/
theorem runCleanup_stays (may : W) (stays : run.Stays W s) (ret : Kind) {cleanup : Handle}
    (within : cleanup.Within W s) (given : ∀ v ∈ args, v.Within W s)
    {failure : Option Throwable} (made : ∀ x ∈ failure, x.id < s.suppressed.size)
    {result : Value} (resultWithin : result.Within W s) :
    Exec.Stays W W s (runCleanup run ret cleanup args failure result)
      fun t v => v.Within W t := by
  unfold runCleanup
  dsimp only
  split
  · exact .halt fun _ _ => trivial
  refine (leading_stays given _).bind fun t rest grows restWithin => ?_
  have fixed := outcome_within ret made resultWithin
  refine ((stays.mono grows).call (within.mono grows) (List.forall_mem_append.2
    ⟨forall_within_mono grows fixed, restWithin⟩)).attempt.bind fun u answer grows' ends => ?_
  split
  · exact .pure fun _ more => Value.Within.mono more ends
  · next raised =>
    have reported : Exec.Stays W W u (Exec.refuse raised : Exec Value) fun t v => v.Within W t :=
      .ofChecked fun _ more => Failure.Within.mono more ends
    split
    · next thrown _ =>
      split
      · have earlierMade := Nat.lt_of_lt_of_le (made _ rfl) (grows.trans grows').throwables
        exact (Throwable.suppress_stays may (ends _ thrown) earlierMade).bind
          fun _ _ more _ => reported.mono more
      · exact reported
    · exact reported

theorem runFinishing_stays (may : W) (stays : run.Stays W s) {cleanup : Handle}
    (within : target.Within W s) (cleanupWithin : cleanup.Within W s)
    (given : ∀ v ∈ args, v.Within W s) :
    Exec.Stays W W s (runFinishing run target cleanup args) fun t v => v.Within W t := by
  unfold runFinishing
  refine (stays.call within given).attempt.bind fun t answer grows ends => ?_
  have given := forall_within_mono grows given
  have stays := stays.mono grows
  have cleanupWithin := cleanupWithin.mono grows
  split
  · refine runCleanup_stays may stays _ cleanupWithin given ?_ ends
    exact nofun
  · next failure =>
    split
    · exact .ofChecked fun _ more => Failure.Within.mono more ends
    · refine (asThrowable_stays ends).bind fun u x grows' made => ?_
      refine (runCleanup_stays may (stays.mono grows') _ (cleanupWithin.mono grows')
        (forall_within_mono grows' given) (by rintro _ ⟨⟩; exact made)
        (Value.within_zero _)).bind fun _ _ grows'' _ => ?_
      exact .ofChecked fun _ more =>
        Failure.Within.mono ((grows'.trans grows'').trans more) ends

theorem perform_stays (stays : run.Stays W s) (limit : Nat) (kind : Kind) {step : Step}
    (within : step.Within W s) (given : ∀ v ∈ frame, v.Within W s) :
    Exec.Stays W W s (perform run limit kind step frame) fun t v => v.Within W t := by
  have read : ∀ slot : Slot,
      Exec.Stays W W s (Exec.ofOption frame[slot]?) fun t v => Value.Within W t v :=
    fun slot => .ofOption fun t v grows found =>
      (given v (List.mem_of_getElem? found)).mono grows
  unfold perform
  cases step with
  | const v => exact .pure fun _ grows => (within_const_iff.1 within).mono grows
  | convert slot source wanted =>
    refine (read slot).bind fun t v _ made => ?_
    exact .ofExcept fun u grows => (Value.convert_ends v source wanted).imp fun w converted =>
      Value.within_of_convert (made.mono grows) converted
  | leaf action args =>
    refine (gather_stays given args).bind fun t vs grows taken => ?_
    refine (stays t (.action action) vs grows ((within_leaf_iff.1 within).mono grows) taken).bind
      fun _ _ _ made => checkResult_stays kind made
  | call target args =>
    exact (gather_stays given args).bind fun t vs grows taken =>
      (stays.mono grows).call ((within_call_iff.1 within).mono grows) taken
  | branch test target fallback args =>
    obtain ⟨testWithin, targetWithin, fallbackWithin⟩ := within_branch_iff.1 within
    exact (gather_stays given args).bind fun t vs grows taken =>
      runBranch_stays (stays.mono grows) (testWithin.mono grows) (targetWithin.mono grows)
        (fallbackWithin.mono grows) taken
  | catching target exception handler args =>
    obtain ⟨targetWithin, handlerWithin⟩ := within_catching_iff.1 within
    exact (gather_stays given args).bind fun t vs grows taken =>
      runCatching_stays (stays.mono grows) (targetWithin.mono grows) exception
        (handlerWithin.mono grows) taken
  | finishing target cleanup args =>
    obtain ⟨may, targetWithin, cleanupWithin⟩ := within_finishing_iff.1 within
    exact (gather_stays given args).bind fun t vs grows taken =>
      runFinishing_stays may (stays.mono grows) (targetWithin.mono grows)
        (cleanupWithin.mono grows) taken
  | loop plan args =>
    exact (gather_stays given args).bind fun t vs grows taken =>
      plan.run_stays (stays.mono grows) limit taken
        (LoopPlan.ClausesWithin.mono grows (within_loop_iff.1 within))
  | collect element args =>
    exact (gather_stays given args).bind fun t vs grows taken =>
      .pure fun u more => Value.within_array_iff.2 (forall_within_mono more taken)
  | spread slot index length =>
    exact (read slot).bind fun t v _ made => spreadItem_stays index length made
  | dynamic site args =>
    refine site.target_stays.bind fun t target grows found => ?_
    refine (gather_stays (forall_within_mono grows given) args).bind fun u vs grows' taken => ?_
    exact (stays.mono (grows.trans grows')).call (found.mono grows') taken

end Step

namespace Program

theorem fill_stays (stays : run.Stays W s) (limit : Nat) (given : ∀ v ∈ frame, v.Within W s)
    {bindings : List Binding} (within : ∀ b ∈ bindings, b.step.Within W s) :
    Exec.Stays W W s (fill run limit frame bindings) fun t vs => ∀ v ∈ vs, v.Within W t := by
  induction bindings generalizing s frame with
  | nil => exact .pure fun _ grows => forall_within_mono grows given
  | cons b rest ih =>
    obtain ⟨here, others⟩ := List.forall_mem_cons.1 within
    refine (Step.perform_stays stays limit b.kind here given).bind fun t v grows made => ?_
    exact ih (stays.mono grows)
      (List.forall_mem_append.2
        ⟨forall_within_mono grows given, List.forall_mem_singleton.2 made⟩)
      fun b mem => (others b mem).mono grows

theorem perform_stays (stays : run.Stays W s) (limit : Nat) {p : Program}
    (within : p.Within W s) (given : ∀ v ∈ args, v.Within W s) :
    Exec.Stays W W s (p.perform run limit args) fun t v => v.Within W t := by
  refine (fill_stays stays limit given within).bind fun t vs _ made => ?_
  split
  · exact .ofOption fun u v grows found => (made v (List.mem_of_getElem? found)).mono grows
  · exact .pure fun _ _ => Value.within_of_isPlain rfl

end Program

/-! Actions. -/

theorem receiver_stays (owner : ClassDef) (args : List Value) :
    Exec.Stays W L s (receiver owner args) fun _ _ => True := by
  unfold receiver
  split
  · exact .pure fun _ _ => trivial
  · exact throwNew_stays _ _
  · exact throwNew_stays _ _
  · exact .refuse rfl

theorem fieldIndex_stays (o : ObjectRef) (name : String) :
    Exec.Stays W L s (fieldIndex o name) fun _ _ => True := by
  unfold fieldIndex
  split
  · exact .pure fun _ _ => trivial
  · exact .refuse rfl

/-- A field of an object holds what exists. -/
theorem State.Closed.field (closed : s.Closed W) {o : ObjectRef} {index : Nat} {v : Value}
    (found : s.field? o index = some v) : v.Within W s := by
  intro n refers
  have mem : v ∈ s.fields o := List.mem_of_getElem? found
  exact closed.held (.object o.id) n (List.mem_filterMap.2 ⟨v, mem, refers⟩)

theorem Intrinsic.perform_stays {f : Intrinsic} (within : (Action.intrinsic f).Within W s)
    (given : ∀ v ∈ args, v.Within W s) :
    Exec.Stays W L s (f.perform args) fun t v => v.Within W t := by
  have plain : ∀ {v : Value}, v.isPlain = true →
      Exec.Stays W L s (pure v : Exec Value) fun t v => v.Within W t :=
    fun plain => .pure fun _ _ => Value.within_of_isPlain plain
  unfold perform
  cases f with
  | throwArgument =>
    dsimp only
    split
    · exact .thrown (Value.within_throwable_iff.1 (given _ (List.mem_cons_self ..)))
    · exact throwNew_stays _ _
    · exact throwNew_stays _ _
    · exact .refuse rfl
  | arrayItem =>
    dsimp only
    split
    · next element items index rest =>
      have items := Value.within_array_iff.1 (given _ (List.mem_cons_self ..))
      split
      · next item found =>
        split at found
        · cases found
        · exact .pure fun _ grows => (items item (List.mem_of_getElem? found)).mono grows
      · exact throwNew_stays _ _
    · exact throwNew_stays _ _
    · exact .refuse rfl
    · exact .halt fun _ _ => trivial
  | arrayLength =>
    dsimp only
    split
    · exact plain rfl
    · exact throwNew_stays _ _
    · exact .refuse rfl
    · exact .halt fun _ _ => trivial
  | intLess =>
    dsimp only
    split
    · exact plain rfl
    · exact plain rfl
    · exact .halt fun _ _ => trivial
  | intIncrement =>
    dsimp only
    split
    · exact plain rfl
    · exact .halt fun _ _ => trivial
  | lambda name implementation instantiated =>
    have implementationWithin : implementation.Within W s :=
      within.nodes _ (List.mem_singleton.2 rfl)
    refine Exec.Stays.bind (.ofBuild_handle fun t grows => Build.allocate_stays
      (Blueprint.insertArguments_within (implementationWithin.mono grows) 0
        (forall_within_mono grows given))) fun t bound _ made => ?_
    refine Exec.Stays.bind (.ofBuild_handle fun u grows =>
      Handle.asType_stays (made.mono grows) instantiated) fun u adapted _ made => ?_
    exact .pure fun _ grows => Value.within_handle_iff.2 (made.mono grows)

theorem Action.perform_stays {native : HostFunction → List Value → Exec Value}
    (host : ∀ (t : State) (f : HostFunction) (args : List Value), s.Grows t →
      (∀ v ∈ args, v.Within W t) → Exec.Stays W W t (native f args) fun u v => v.Within W u)
    {action : Action} (within : action.Within W s) (given : ∀ v ∈ args, v.Within W s) :
    Exec.Stays W W s (action.perform native args) fun t v => v.Within W t := by
  unfold perform
  cases action with
  | host f => exact host s f args (.refl s) given
  | intrinsic f => exact Intrinsic.perform_stays within given
  | virtual owner name =>
    refine (receiver_stays owner args).bind fun t o grows _ => ?_
    split
    · exact host t _ args grows (forall_within_mono grows given)
    · exact .refuse rfl
  | getField owner name =>
    refine (receiver_stays owner args).bind fun _ o _ _ => ?_
    refine (fieldIndex_stays o name).bind fun _ index _ _ => ?_
    refine Exec.Stays.get.bind fun t u _ => ?_
    rintro ⟨rfl, closed⟩
    split
    · next v found => exact .pure fun _ grows => (closed.field found).mono grows
    · exact .refuse rfl
  | setField owner name =>
    refine (receiver_stays owner args.dropLast).bind fun t o grows _ => ?_
    refine (fieldIndex_stays o name).bind fun u index grows' _ => ?_
    have last : (args.getLast?.getD .null).Within W u := by
      cases found : args.getLast? with
      | none => exact Value.within_of_isPlain rfl
      | some v => exact (given v (List.mem_of_getLast? found)).mono (grows.trans grows')
    refine (o.setField_stays index (within.writes rfl) last).bind fun _ done _ _ => ?_
    split
    · exact .pure fun _ _ => Value.within_of_isPlain rfl
    · exact .refuse rfl
  | construct c =>
    dsimp only
    split
    · exact .refuse rfl
    · exact (newObject_stays c given).bind fun t o _ made =>
        .pure fun _ grows => Value.within_object_iff.2 (Nat.lt_of_lt_of_le made grows.objects)

/-! Invocations from outside. -/

namespace Handle

variable {h : Handle}

theorem checkArguments_static (h : Handle) (args : List Value) :
    Ends (·.isStatic = true) (fun _ => True) (h.checkArguments args) := by
  unfold checkArguments
  split
  · rfl
  · split
    · trivial
    · exact (Signature.make_ends _ _).bind fun _ _ => rfl
    · exact rfl

theorem invokeExact_stays (stays : run.Stays W s) (within : h.Within W s)
    (given : ∀ v ∈ args, v.Within W s) :
    Exec.Stays W W s (h.invokeExact run args) fun t v => v.Within W t :=
  (Exec.Stays.ofExcept fun _ _ => h.checkArguments_static args).bind fun _ _ grows _ =>
    (stays.mono grows).call (within.mono grows) (forall_within_mono grows given)

theorem invokeAs_stays (stays : run.Stays W s) (within : h.Within W s) (caller : Signature)
    (given : ∀ v ∈ args, v.Within W s) :
    Exec.Stays W W s (h.invokeAs run caller args) fun t v => v.Within W t :=
  (Exec.Stays.ofBuild_handle fun _ grows => adaptedTo_stays (within.mono grows) caller).bind
    fun _ _ grows made =>
      invokeExact_stays (stays.mono grows) made (forall_within_mono grows given)

theorem invoke_stays (stays : run.Stays W s) (within : h.Within W s)
    (given : ∀ v ∈ args, v.Within W s) :
    Exec.Stays W W s (h.invoke run args) fun t v => v.Within W t := by
  unfold invoke
  dsimp only
  split
  · exact .refuse rfl
  · refine Exec.Stays.bind (P := fun _ _ => True)
      (.ofExcept fun _ _ => (Signature.make_ends _ _).imp fun _ _ => trivial)
      fun t caller grows _ => ?_
    exact invokeAs_stays (stays.mono grows) (within.mono grows) caller
      (forall_within_mono grows given)

end Handle
end TypedHandles
