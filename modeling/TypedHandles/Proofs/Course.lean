import TypedHandles.Proofs.Recording

/-!
What the machine may do to the state, one change after another. A course is a sequence of such
changes together with the events that were recorded on it, and whatever the machine runs takes a
course. So what every change keeps is kept by every run.
-/
namespace TypedHandles

/-- Whether an event goes with an update of a linker's table or of a site. -/
def Event.isUpdate : Event → Bool
  | .published .. | .forgotten .. | .retargeted .. => true
  | _ => false

/-- A site is the one that the result of a bootstrap stands for: the result itself, or a constant
site of the handle that was returned. -/
inductive Value.StandsFor : Value → CallSite → Prop
  | site (site : CallSite) : StandsFor (.callSite site) site
  | handle (h : Handle) (id : Nat) : StandsFor (.handle h) ⟨id, .constant, h.signature⟩

/-- A change of the state that goes without an event. -/
inductive State.Change (s : State) : State → Prop
  | built (handles : HandleTable) : Change s { s with handles := handles }
  | newObject (fields : List Value) : Change s { s with objects := s.objects.push fields }
  | fieldSet (o : ObjectRef) (index : Nat) (v : Value) : index < (s.fields o).length →
      Change s { s with objects := s.objects.setIfInBounds o.id ((s.fields o).set index v) }
  | newThrowable : Change s { s with suppressed := s.suppressed.push [] }
  | suppressed (t other : Throwable) :
      Change s { s with
        suppressed := s.suppressed.setIfInBounds t.id (s.suppressedBy t ++ [other]) }
  | newSite (target : Option Handle) : Change s { s with sites := s.sites.push ⟨target, 0⟩ }
  | registered (registries : Array Registry) : Change s { s with registries := registries }
  | cached (caches : Array SharedHandles) : Change s { s with caches := caches }
  | counted (counters : Array Nat) : Change s { s with counters := counters }

/-- A course from one state to another, and the events on it, the latest first. A linker publishes a
site for a point that it has not linked, right after a bootstrap returned what the site stands for,
and it forgets the site of a point that it has linked. A site gets a target that passed its
check. -/
inductive State.Course (s : State) : List Event → State → Prop
  | start : Course s [] s
  | change {es : List Event} {t u : State} : Course s es t → t.Change u → Course s es u
  | record {es : List Event} {t : State} (e : Event) : Course s es t → e.isUpdate = false →
      Course s (e :: es) { t with journal := e :: t.journal }
  | publish {es : List Event} {t : State} (l : Linker) (point : UInt64) {v : Value}
      {site : CallSite} : Course s (.ended (.ok v) :: es) t → v.StandsFor site →
      l.linked? t point = none →
      Course s (.published l.id point site :: .ended (.ok v) :: es) { t with
        linkers := t.linkers.modify l.id ((point, site) :: ·)
        journal := .published l.id point site :: t.journal }
  | forget {es : List Event} {t : State} (l : Linker) (point : UInt64) {site : CallSite} :
      Course s es t → l.linked? t point = some site →
      Course s (.forgotten l.id point site :: es) { t with
        linkers := t.linkers.modify l.id (·.filter (·.1 != point))
        journal := .forgotten l.id point site :: t.journal }
  | retarget {es : List Event} {t : State} (site : CallSite) (target : Handle) : Course s es t →
      site.checkRetarget target = .ok () →
      Course s (.retargeted site target :: es) { t with
        sites := t.sites.modify site.id fun cell => ⟨some target, cell.generation + 1⟩
        journal := .retargeted site target :: t.journal }

theorem State.Course.trans {s t u : State} {es es' : List Event} (first : s.Course es t)
    (second : t.Course es' u) : s.Course (es' ++ es) u := by
  induction second with
  | start => exact first
  | change _ changed ih => exact .change ih changed
  | record e _ other ih => exact .record e ih other
  | publish l point _ stands absent ih => exact .publish l point ih stands absent
  | forget l point _ found ih => exact .forget l point ih found
  | retarget site target _ passed ih => exact .retarget site target ih passed

/-- A computation takes a course, and its result is as `Q` says of the events on it. -/
def Exec.CoursesTo {α : Type} (Q : α → List Event → Prop) (x : Exec α) : Prop :=
  ∀ s, ∃ es, s.Course es (x s).2 ∧ ∀ a, (x s).1 = .ok a → Q a es

/-- A computation takes a course. -/
abbrev Exec.Courses {α : Type} (x : Exec α) : Prop := Exec.CoursesTo (fun _ _ => True) x

namespace Exec.CoursesTo

variable {α β : Type} {Q : α → List Event → Prop} {x : Exec α}

theorem courses (hx : CoursesTo Q x) : Courses x := by
  intro s
  obtain ⟨es, course, -⟩ := hx s
  exact ⟨es, course, fun _ _ => trivial⟩

theorem bind {R : β → List Event → Prop} {f : α → Exec β} (hx : CoursesTo Q x)
    (hf : ∀ a, CoursesTo R (f a)) (grows : ∀ b es es', R b es' → R b (es' ++ es)) :
    CoursesTo R (x >>= f) := by
  intro s
  obtain ⟨es, course, -⟩ := hx s
  cases result : x s with
  | mk outcome t =>
    rw [result] at course
    cases outcome with
    | error e =>
      rw [bind_of_error result]
      exact ⟨es, course, nofun⟩
    | ok a =>
      rw [bind_of_ok result]
      obtain ⟨es', course', ends⟩ := hf a t
      exact ⟨es' ++ es, course.trans course', fun b returns => grows b es es' (ends b returns)⟩

end Exec.CoursesTo

namespace Exec.Courses

variable {α β : Type} {x : Exec α}

/-- A computation that leaves the state alone. -/
theorem still (h : ∀ s, (x s).2 = s) : Courses x := by
  intro s
  refine ⟨[], ?_, fun _ _ => trivial⟩
  rw [h s]
  exact .start

/-- A computation that changes the state once at most. -/
theorem once (h : ∀ s, (x s).2 = s ∨ s.Change (x s).2) : Courses x := by
  intro s
  refine ⟨[], ?_, fun _ _ => trivial⟩
  rcases h s with same | changed
  · rw [same]
    exact .start
  · exact .change .start changed

theorem bind {f : α → Exec β} (hx : Courses x) (hf : ∀ a, Courses (f a)) : Courses (x >>= f) :=
  CoursesTo.bind hx hf fun _ _ _ _ => trivial

theorem pure (a : α) : Courses (Pure.pure a : Exec α) := still fun _ => rfl

theorem halt (e : Halt) : Courses (throw e : Exec α) := still fun _ => rfl

theorem ofChecked (c : Checked α) : Courses (Exec.ofChecked c) := still fun _ => rfl

theorem get : Courses (MonadState.get : Exec State) := still fun _ => rfl

theorem ofBuild (b : Build α) : Courses (Exec.ofBuild b) := once fun _ => .inr (.built _)

theorem record {e : Event} (h : e.isUpdate = false) : Courses (Exec.record e) :=
  fun _ => ⟨[e], .record e .start h, fun _ _ => trivial⟩

/-- What goes on after a failure takes its course as well. -/
theorem attempt (hx : Courses x) : Courses x.attempt := by
  intro s
  obtain ⟨es, course, -⟩ := hx s
  rw [attempt_apply]
  exact ⟨es, course, fun _ _ => trivial⟩

end Exec.Courses

/-- A way to run code takes a course on whatever it runs. -/
def Runner.Courses (run : Runner) : Prop :=
  ∀ (code : Code) (args : List Value), Exec.Courses (run code args)

variable {run : Runner}

theorem newThrowable_courses (c : ClassDef) (message : String) :
    Exec.Courses (newThrowable c message) :=
  .once fun _ => .inr .newThrowable

theorem throwNew_courses {α : Type} (c : ClassDef) (message : String) :
    Exec.Courses (throwNew c message : Exec α) :=
  (newThrowable_courses c message).bind fun _ => .ofChecked _

theorem asThrowable_courses (failure : Failure) : Exec.Courses (asThrowable failure) := by
  unfold asThrowable
  split
  · exact .pure _
  · exact newThrowable_courses _ _

theorem suppress_courses (t other : Throwable) : Exec.Courses (t.suppress other) :=
  .once fun _ => .inr (.suppressed t other)

theorem newObject_courses (c : ClassDef) (fields : List Value) :
    Exec.Courses (newObject c fields) :=
  .once fun _ => .inr (.newObject fields)

theorem ObjectRef.setField_courses (o : ObjectRef) (index : Nat) (v : Value) :
    Exec.Courses (o.setField index v) := by
  refine .once fun s => ?_
  unfold setField
  dsimp only
  split
  · next inside => exact .inr (.fieldSet o index v inside)
  · exact .inl rfl

theorem newSite_courses (kind : SiteKind) (signature : Signature) (target : Option Handle) :
    Exec.Courses (newSite kind signature target) :=
  .once fun _ => .inr (.newSite target)

namespace CallSite

theorem target_courses (site : CallSite) : Exec.Courses site.target := by
  refine Exec.Courses.get.bind fun s => ?_
  split
  · exact .pure _
  · exact .ofChecked _

/-- A site gets another target only after its check. -/
theorem setTargetFenced_courses (site : CallSite) (target : Handle) :
    Exec.Courses (site.setTargetFenced target) := by
  unfold setTargetFenced
  cases passed : site.checkRetarget target with
  | error failure => exact .still fun _ => rfl
  | ok _ =>
    exact fun _ => ⟨[.retargeted site target], .retarget site target .start passed,
      fun _ _ => trivial⟩

theorem setTargetPlain_courses (site : CallSite) (target : Handle) :
    Exec.Courses (site.setTargetPlain target) := by
  unfold setTargetPlain
  split
  · exact site.setTargetFenced_courses target
  · exact site.setTargetFenced_courses target

theorem setTarget_courses (site : CallSite) (target : Handle) :
    Exec.Courses (site.setTarget target) := by
  unfold setTarget
  split
  · exact site.setTargetFenced_courses target
  · exact site.setTargetPlain_courses target
  · exact site.setTargetPlain_courses target

end CallSite

/-! Loops. -/

theorem leading_courses (values : List Value) (count : Nat) :
    Exec.Courses (leading values count) :=
  .ofChecked _

namespace LoopPlan

theorem onLeading_courses (courses : run.Courses) (h : Handle) (values : List Value) :
    Exec.Courses (onLeading run.call h values) :=
  (leading_courses values h.arity).bind fun _ => courses _ _

theorem start_courses (courses : run.Courses) (carried : List Kind) (args : List Value)
    (clauses : List (LoopClause × Option Slot)) :
    Exec.Courses (start run.call carried args clauses) := by
  induction clauses with
  | nil => exact .pure _
  | cons entry rest ih =>
    obtain ⟨c, slot⟩ := entry
    have initial : Exec.Courses (c.init.mapM fun init => onLeading run.call init args) := by
      cases c.init with
      | none => exact .pure _
      | some init => exact (onLeading_courses courses init args).bind fun _ => .pure _
    have others : ∀ here : List Value,
        Exec.Courses (do return here ++ (← start run.call carried args rest)) :=
      fun here => ih.bind fun _ => .pure _
    unfold start
    refine initial.bind fun v => ?_
    cases slot with
    | none => exact others []
    | some s =>
      cases v with
      | some w => exact others [w]
      | none => exact (Exec.Courses.ofChecked _).bind fun k => others [.zero k]

theorem goesOn_courses (courses : run.Courses) (frame : List Value) (clauses : List LoopClause) :
    Exec.Courses (goesOn run.call frame clauses) := by
  induction clauses with
  | nil => exact .pure _
  | cons c rest ih =>
    unfold goesOn
    split
    · exact ih
    · refine (onLeading_courses courses _ frame).bind fun v => ?_
      split
      · exact ih
      · exact .pure _

theorem advance_courses (courses : run.Courses) (frame : List Value)
    (clauses : List (LoopClause × Option Slot)) :
    Exec.Courses (advance run.call frame clauses) := by
  induction clauses generalizing frame with
  | nil => exact .pure _
  | cons entry rest ih =>
    obtain ⟨c, slot⟩ := entry
    unfold advance
    split
    · exact ih frame
    · refine (onLeading_courses courses _ frame).bind fun v => ?_
      cases slot with
      | none => exact ih frame
      | some s =>
        refine Exec.Courses.bind ?_ ih
        unfold store
        split
        · exact .pure _
        · exact .halt _

theorem finish_courses (courses : run.Courses) (frame : List Value) (chosen : Option Nat)
    (index : Nat) (result : Value) (clauses : List LoopClause) :
    Exec.Courses (finish run.call frame chosen index result clauses) := by
  induction clauses generalizing index result with
  | nil => exact .pure _
  | cons c rest ih =>
    unfold finish
    split
    · exact ih _ _
    · exact (onLeading_courses courses _ frame).bind fun v => ih _ _

theorem rounds_courses (courses : run.Courses) (plan : LoopPlan) (limit : Nat)
    (frame : List Value) : Exec.Courses (rounds run.call plan limit frame) := by
  induction limit generalizing frame with
  | zero => exact .halt _
  | succ n ih =>
    unfold rounds
    refine (goesOn_courses courses frame plan.clauses).bind fun another => ?_
    split
    · exact (advance_courses courses frame _).bind ih
    · exact finish_courses courses frame plan.result 0 .void plan.clauses

theorem run_courses (courses : run.Courses) (plan : LoopPlan) (limit : Nat) (args : List Value) :
    Exec.Courses (plan.run run.call limit args) :=
  (start_courses courses plan.carried args _).bind fun _ => rounds_courses courses plan limit _

end LoopPlan

/-! Steps and programs. -/

namespace Step

theorem gather_courses (frame : List Value) (slots : List Slot) :
    Exec.Courses (gather frame slots) := by
  induction slots with
  | nil => exact .pure _
  | cons slot rest ih =>
    exact (Exec.Courses.ofChecked _).bind fun v => ih.bind fun _ => .pure _

theorem checkResult_courses (kind : Kind) (v : Value) : Exec.Courses (checkResult kind v) := by
  unfold checkResult
  split
  · exact .pure _
  · split
    · exact .pure _
    · exact .ofChecked _

theorem spreadItem_courses (index length : Nat) (v : Value) :
    Exec.Courses (spreadItem index length v) := by
  unfold spreadItem
  split
  · split
    · exact .ofChecked _
    · exact .ofChecked _
  · exact .ofChecked _

theorem runBranch_courses (courses : run.Courses) (test target fallback : Handle)
    (args : List Value) : Exec.Courses (runBranch run test target fallback args) := by
  refine (leading_courses args test.arity).bind fun _ => ?_
  refine Exec.Courses.bind (courses _ _) fun outcome => ?_
  split
  · exact courses _ _
  · exact courses _ _

theorem runCatching_courses (courses : run.Courses) (target : Handle) (exception : RefType)
    (handler : Handle) (args : List Value) :
    Exec.Courses (runCatching run target exception handler args) := by
  refine (Exec.Courses.attempt (courses _ _)).bind fun answer => ?_
  split
  · exact .pure _
  · split
    · split
      · exact .halt _
      · exact (leading_courses args _).bind fun _ => courses _ _
    · exact .ofChecked _
  · exact .ofChecked _

theorem runCleanup_courses (courses : run.Courses) (ret : Kind) (cleanup : Handle)
    (args : List Value) (failure : Option Throwable) (result : Value) :
    Exec.Courses (runCleanup run ret cleanup args failure result) := by
  unfold runCleanup
  dsimp only
  split
  · exact .halt _
  refine (leading_courses args _).bind fun rest => ?_
  refine (Exec.Courses.attempt (courses _ _)).bind fun answer => ?_
  split
  · exact .pure _
  · split
    · split
      · exact (suppress_courses _ _).bind fun _ => .ofChecked _
      · exact .ofChecked _
    · exact .ofChecked _

theorem runFinishing_courses (courses : run.Courses) (target cleanup : Handle)
    (args : List Value) : Exec.Courses (runFinishing run target cleanup args) := by
  refine (Exec.Courses.attempt (courses _ _)).bind fun answer => ?_
  split
  · exact runCleanup_courses courses _ _ _ _ _
  · split
    · exact .ofChecked _
    · refine (asThrowable_courses _).bind fun t => ?_
      exact (runCleanup_courses courses _ _ _ _ _).bind fun _ => .ofChecked _

theorem perform_courses (courses : run.Courses) (limit : Nat) (kind : Kind) (step : Step)
    (frame : List Value) : Exec.Courses (perform run limit kind step frame) := by
  unfold perform
  cases step with
  | const v => exact .pure v
  | convert slot source target => exact (Exec.Courses.ofChecked _).bind fun v => .ofChecked _
  | leaf action args =>
    exact (gather_courses frame args).bind fun vs =>
      Exec.Courses.bind (courses _ _) fun v => checkResult_courses kind v
  | call target args => exact (gather_courses frame args).bind fun vs => courses _ _
  | branch test target fallback args =>
    exact (gather_courses frame args).bind fun vs => runBranch_courses courses _ _ _ vs
  | catching target exception handler args =>
    exact (gather_courses frame args).bind fun vs => runCatching_courses courses _ _ _ vs
  | finishing target cleanup args =>
    exact (gather_courses frame args).bind fun vs => runFinishing_courses courses _ _ vs
  | loop plan args =>
    exact (gather_courses frame args).bind fun vs => plan.run_courses courses limit vs
  | collect element args => exact (gather_courses frame args).bind fun vs => .pure _
  | spread slot index length =>
    exact (Exec.Courses.ofChecked _).bind fun v => spreadItem_courses index length v
  | dynamic site args =>
    exact (CallSite.target_courses site).bind fun target =>
      (gather_courses frame args).bind fun vs => courses _ _

end Step

namespace Program

theorem fill_courses (courses : run.Courses) (limit : Nat) (frame : List Value)
    (bindings : List Binding) : Exec.Courses (fill run limit frame bindings) := by
  induction bindings generalizing frame with
  | nil => exact .pure frame
  | cons b rest ih =>
    exact (Step.perform_courses courses limit b.kind b.step frame).bind fun v => ih _

theorem perform_courses (courses : run.Courses) (limit : Nat) (p : Program) (args : List Value) :
    Exec.Courses (p.perform run limit args) := by
  refine (fill_courses courses limit args p.bindings).bind fun frame => ?_
  split
  · exact .ofChecked _
  · exact .pure _

end Program

/-! Actions. -/

theorem receiver_courses (owner : ClassDef) (args : List Value) :
    Exec.Courses (receiver owner args) := by
  unfold receiver
  split
  · exact .pure _
  · exact throwNew_courses _ _
  · exact throwNew_courses _ _
  · exact .ofChecked _

theorem fieldIndex_courses (o : ObjectRef) (name : String) :
    Exec.Courses (fieldIndex o name) := by
  unfold fieldIndex
  split
  · exact .pure _
  · exact .ofChecked _

theorem Intrinsic.perform_courses (f : Intrinsic) (args : List Value) :
    Exec.Courses (f.perform args) := by
  unfold perform
  cases f with
  | throwArgument =>
    dsimp only
    split
    · exact .ofChecked _
    · exact throwNew_courses _ _
    · exact throwNew_courses _ _
    · exact .ofChecked _
  | arrayItem =>
    dsimp only
    split
    · split
      · exact .pure _
      · exact throwNew_courses _ _
    · exact throwNew_courses _ _
    · exact .ofChecked _
    · exact .halt _
  | arrayLength =>
    dsimp only
    split
    · exact .pure _
    · exact throwNew_courses _ _
    · exact .ofChecked _
    · exact .halt _
  | intLess =>
    dsimp only
    split
    · exact .pure _
    · exact .pure _
    · exact .halt _
  | intIncrement =>
    dsimp only
    split
    · exact .pure _
    · exact .halt _
  | lambda name implementation instantiated =>
    exact (Exec.Courses.ofBuild _).bind fun h => (Exec.Courses.ofBuild _).bind fun _ => .pure _

theorem Action.perform_courses {native : HostFunction → List Value → Exec Value}
    (host : ∀ f args, Exec.Courses (native f args)) (action : Action) (args : List Value) :
    Exec.Courses (action.perform native args) := by
  unfold perform
  cases action with
  | host f => exact host f args
  | intrinsic f => exact f.perform_courses args
  | virtual owner name =>
    refine (receiver_courses owner args).bind fun o => ?_
    split
    · exact host _ args
    · exact .ofChecked _
  | getField owner name =>
    refine (receiver_courses owner args).bind fun o => ?_
    refine (fieldIndex_courses o name).bind fun index => ?_
    refine Exec.Courses.get.bind fun s => ?_
    split
    · exact .pure _
    · exact .ofChecked _
  | setField owner name =>
    refine (receiver_courses owner args.dropLast).bind fun o => ?_
    refine (fieldIndex_courses o name).bind fun index => ?_
    refine (o.setField_courses index _).bind fun done => ?_
    split
    · exact .pure _
    · exact .ofChecked _
  | construct c =>
    dsimp only
    split
    · exact .ofChecked _
    · exact (newObject_courses c args).bind fun o => .pure _

/-! Invocations from outside. -/

namespace Handle

theorem invokeExact_courses (courses : run.Courses) (h : Handle) (args : List Value) :
    Exec.Courses (h.invokeExact run args) :=
  (Exec.Courses.ofChecked _).bind fun _ => courses _ _

theorem invokeAs_courses (courses : run.Courses) (h : Handle) (caller : Signature)
    (args : List Value) : Exec.Courses (h.invokeAs run caller args) :=
  (Exec.Courses.ofBuild _).bind fun a => a.invokeExact_courses courses args

theorem invoke_courses (courses : run.Courses) (h : Handle) (args : List Value) :
    Exec.Courses (h.invoke run args) := by
  unfold invoke
  dsimp only
  split
  · exact .ofChecked _
  · exact (Exec.Courses.ofChecked _).bind fun caller => h.invokeAs_courses courses caller args

end Handle

/-! Lookups and caches. -/

theorem withCache_courses (cache : Nat) (f : SharedHandles → Build (Handle × SharedHandles)) :
    Exec.Courses (withCache cache f) := by
  refine Exec.Courses.get.bind fun s => ?_
  refine (Exec.Courses.ofChecked _).bind fun c => ?_
  refine (Exec.Courses.ofBuild (f c)).bind fun r => ?_
  exact (Exec.Courses.once fun _ => .inr (.cached _)).bind fun _ => .pure _

namespace Lookup

theorem find_courses (l : Lookup) (request : MemberRequest) : Exec.Courses (l.find request) := by
  unfold find checkGate
  refine Exec.Courses.bind ?_ fun _ => ?_
  · split
    · exact (Exec.Courses.record rfl).bind fun _ => .ofChecked _
    · exact .pure _
  refine Exec.Courses.get.bind fun s => ?_
  refine (Exec.Courses.ofChecked _).bind fun r => ?_
  refine (Exec.Courses.ofChecked _).bind fun member => ?_
  dsimp only
  split
  · split
    · exact .ofChecked _
    · exact .ofBuild _
  · exact .ofBuild _

theorem findMember_courses (l : Lookup) (query : MemberQuery) :
    Exec.Courses (l.findMember query) := by
  refine (l.find_courses query.request).bind fun h => ?_
  dsimp only
  split
  · exact .ofChecked _
  · exact .pure h

end Lookup

/-! Linkers. -/

namespace Linker

/-- What a linker accepts is a site that the bootstrap's result stands for, and no event is on the
way. -/
theorem accept_course (l : Linker) (d : Descriptor) (v : Value) (s : State) :
    s.Course [] (l.accept d v s).2 ∧ ∀ site, (l.accept d v s).1 = .ok site → v.StandsFor site := by
  unfold accept
  split
  · next found =>
    unfold checkSignature
    split
    · exact ⟨.start, nofun⟩
    · refine ⟨.start, fun site same => ?_⟩
      cases same
      exact .site found
  · next h =>
    split
    · unfold checkSignature
      split
      · exact ⟨.start, nofun⟩
      · refine ⟨.change .start (.newSite (some h)), fun site same => ?_⟩
        cases same
        exact .handle h _
    · exact ⟨.start, nofun⟩
  · exact ⟨.start, nofun⟩

/-- What was returned last: host code that returns something ends with it. -/
abbrev Returned (v : Value) (es : List Event) : Prop := ∃ rest, es = .ended (.ok v) :: rest

/-- A resolved site is one that the bootstrap's result stands for. -/
theorem resolve_courses (l : Linker) (d : Descriptor) {bootstrap : Exec Value}
    (courses : bootstrap.CoursesTo Returned) :
    (l.resolve d bootstrap).CoursesTo fun site es => ∃ v, Returned v es ∧ v.StandsFor site := by
  intro s
  obtain ⟨es, course, returned⟩ := courses s
  have attempted := Exec.attempt_apply bootstrap s
  unfold resolve
  match result : bootstrap s with
  | (.ok v, t) =>
    rw [result] at attempted course returned
    rw [bind_of_ok attempted]
    obtain ⟨accepted, stands⟩ := l.accept_course d v t
    exact ⟨es, course.trans accepted, fun site same => ⟨v, returned v rfl, stands site same⟩⟩
  | (.error (.failed cause), t) =>
    rw [result] at attempted course
    rw [bind_of_ok attempted]
    exact ⟨es, course, nofun⟩
  | (.error .stuck, t) | (.error .exhausted, t) =>
    rw [result] at attempted course
    rw [bind_of_error attempted]
    exact ⟨es, course, nofun⟩

theorem link_courses (l : Linker) (point : UInt64) (d : Descriptor) {bootstrap : Exec Value}
    (courses : bootstrap.CoursesTo Returned) : Exec.Courses (l.link point d bootstrap) := by
  refine Exec.Courses.get.bind fun _ => ?_
  split
  · exact .pure _
  intro s
  obtain ⟨es, course, resolved⟩ := l.resolve_courses d courses s
  match result : l.resolve d bootstrap s with
  | (.error e, t) =>
    rw [result] at course
    rw [bind_of_error result]
    exact ⟨es, course, fun _ _ => trivial⟩
  | (.ok site, t) =>
    rw [result] at course resolved
    rw [bind_of_ok result]
    obtain ⟨v, ⟨rest, rfl⟩, stands⟩ := resolved site rfl
    unfold publish
    split
    · exact ⟨_, course, fun _ _ => trivial⟩
    · next absent => exact ⟨_, .publish l point course stands absent, fun _ _ => trivial⟩

theorem unregister_courses (l : Linker) (point : UInt64) :
    Exec.Courses (l.unregister point) := by
  intro s
  unfold unregister
  split
  · next found => exact ⟨_, .forget l point .start found, fun _ _ => trivial⟩
  · exact ⟨_, .start, fun _ _ => trivial⟩

end Linker

/-! Host code. -/

theorem announce_courses {lookup : Lookup} {point : Descriptor} {x : Exec Value}
    (courses : x.CoursesTo Linker.Returned) :
    (announce lookup point x).CoursesTo Linker.Returned :=
  Exec.CoursesTo.bind (Exec.Courses.record rfl) (fun _ => courses)
    fun _ es _ ⟨rest, same⟩ => ⟨rest ++ es, by rw [same]; rfl⟩

mutual

/-- Host code takes a course, and what it returns is its last event. -/
theorem HostTask.run_courses (task : HostTask) (courses : run.Courses) :
    (task.run run).CoursesTo Linker.Returned := by
  match task with
  | .done result =>
    intro s
    refine ⟨[.ended result], .record _ .start rfl, fun v returned => ⟨[], ?_⟩⟩
    cases result with
    | ok w =>
      cases returned
      rfl
    | error failure => cases returned
  | .ask question resume =>
    exact Exec.CoursesTo.bind (Operation.answer_courses question courses).attempt
      (fun answer => HostTask.run_courses (resume answer) courses)
      fun _ es _ ⟨rest, same⟩ => ⟨rest ++ es, by rw [same]; rfl⟩
termination_by structural task

theorem Operation.answer_courses (question : Operation) (courses : run.Courses) :
    Exec.Courses (question.answer run) := by
  match question with
  | .construct c => exact (Exec.Courses.ofBuild c.build).bind fun _ => .pure _
  | .lambdaFactory name factory implementation instantiated =>
    exact (Exec.Courses.ofBuild _).bind fun _ => .pure _
  | .perform action args => exact courses _ _
  | .invokeExact target args => exact target.invokeExact_courses courses args
  | .invoke target args => exact target.invoke_courses courses args
  | .invokeAs target caller args => exact target.invokeAs_courses courses caller args
  | .newObject c fields => exact (newObject_courses c fields).bind fun _ => .pure _
  | .newThrowable c message => exact (newThrowable_courses c message).bind fun _ => .pure _
  | .getField o index => exact Exec.Courses.get.bind fun _ => .pure _
  | .setField o index v => exact (o.setField_courses index v).bind fun _ => .pure _
  | .suppress t other => exact (suppress_courses t other).bind fun _ => .pure _
  | .newSite kind target => exact (newSite_courses kind _ _).bind fun _ => .pure _
  | .newUnlinkedSite kind signature =>
    exact (newSite_courses kind signature none).bind fun _ => .pure _
  | .siteTarget site => exact site.target_courses.bind fun _ => .pure _
  | .setTarget site target => exact (site.setTarget_courses target).bind fun _ => .pure _
  | .setTargetPlain site target =>
    exact (site.setTargetPlain_courses target).bind fun _ => .pure _
  | .setTargetFenced site target =>
    exact (site.setTargetFenced_courses target).bind fun _ => .pure _
  | .registerStatic registry owner name member =>
    exact (Exec.Courses.once fun _ => .inr (.registered _)).bind fun _ => .pure _
  | .registerClass registry c =>
    exact (Exec.Courses.once fun _ => .inr (.registered _)).bind fun _ => .pure _
  | .find lookup request => exact (lookup.find_courses request).bind fun _ => .pure _
  | .findMember lookup query => exact (lookup.findMember_courses query).bind fun _ => .pure _
  | .cachedConstant cache kind v => exact (withCache_courses cache _).bind fun _ => .pure _
  | .cachedIdentity cache kind => exact (withCache_courses cache _).bind fun _ => .pure _
  | .clearCache cache =>
    exact (Exec.Courses.once fun _ => .inr (.cached _)).bind fun _ => .pure _
  | .bootstrap lookup point method =>
    exact (announce_courses (HostTask.run_courses (method lookup point) courses)).courses
  | .resolve linker point method =>
    exact (linker.resolve_courses point
      (announce_courses (HostTask.run_courses _ courses))).courses.bind fun _ => .pure _
  | .link linker id point method =>
    exact (linker.link_courses id point
      (announce_courses (HostTask.run_courses _ courses))).bind fun _ => .pure _
  | .unregister linker id => exact (linker.unregister_courses id).bind fun _ => .pure _
  | .invokePoint linker id point method args =>
    refine (linker.link_courses id point
      (announce_courses (HostTask.run_courses _ courses))).bind fun site => ?_
    exact site.target_courses.bind fun target => target.invokeExact_courses courses args
  | .count counter =>
    refine Exec.Courses.get.bind fun s => ?_
    refine (Exec.Courses.ofChecked _).bind fun found => ?_
    exact (Exec.Courses.once fun _ => .inr (.counted _)).bind fun _ => .pure _
termination_by structural question

end

/-! The machine. -/

theorem callHost_courses (host : Host) (courses : run.Courses) (f : HostFunction)
    (args : List Value) : Exec.Courses (callHost host run f args) :=
  (Exec.Courses.record rfl).bind fun _ => (HostTask.run_courses (host f args) courses).courses

/-- Whatever the machine runs takes a course. -/
theorem runCode_courses (host : Host) (n : Nat) : (runCode host n).Courses := by
  induction n with
  | zero => exact fun _ _ => .halt _
  | succ n ih =>
    intro code args
    cases code with
    | program s p => exact p.perform_courses ih n args
    | action a => exact a.perform_courses (callHost_courses host ih) args

end TypedHandles
