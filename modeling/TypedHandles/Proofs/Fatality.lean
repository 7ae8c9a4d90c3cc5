import TypedHandles.Proofs.Recording
import TypedHandles.Proofs.Hosting

/-!
Fatal failures end a run. No step, loop, adapter or linker follows one with anything else, and host
code follows none with anything else when it passes on the fatal failures of the code that it runs.
-/
namespace TypedHandles

/-! Handles are refused for static reasons only, whatever they are made of. -/

namespace Build

variable {α β : Type}

/-- A computation that fails for static reasons only. -/
def Static (x : Build α) : Prop := ∀ t, Ends Halt.IsStatic (fun _ => True) (x t).1

theorem Static.bind {x : Build α} {f : α → Build β} (hx : x.Static) (hf : ∀ a, (f a).Static) :
    (x >>= f).Static := by
  intro t
  have ends := hx t
  cases result : x t with
  | mk outcome t' =>
    rw [result] at ends
    cases outcome with
    | error e =>
      rw [bind_of_error result]
      exact ends
    | ok a =>
      rw [bind_of_ok result]
      exact hf a t'

theorem static_ofChecked {x : Checked α} {Q : α → Prop} (h : Ends Halt.IsStatic Q x) :
    (ofChecked x).Static :=
  fun _ => h.imp fun _ _ => trivial

theorem static_allocate {b : Checked Blueprint} {Q : Blueprint → Prop}
    (h : Ends Halt.IsStatic Q b) : (allocate b).Static := by
  intro t
  cases b with
  | ok blueprint => trivial
  | error halt => exact h

end Build

namespace Handle

theorem asType_static (h : Handle) (s : Signature) : (h.asType s).Static := by
  unfold asType
  dsimp only
  split
  · exact fun _ => trivial
  refine Build.Static.bind (fun _ => trivial) fun t => ?_
  split
  · exact fun _ => trivial
  · split
    · exact fun _ => rfl
    · exact Build.Static.bind (fun _ => trivial) fun a =>
        Build.Static.bind (fun _ => trivial) fun _ _ => trivial

theorem adaptedTo_static (h : Handle) (caller : Signature) : (h.adaptedTo caller).Static := by
  unfold adaptedTo
  refine (Build.static_ofChecked (h.collectedCount_ends caller)).bind fun count => ?_
  split
  · refine (Build.static_ofChecked (Ends.ofOption fun _ found => found)).bind fun array => ?_
    refine (Build.static_allocate (Blueprint.collector_ends h array _)).bind fun collector => ?_
    exact collector.asType_static caller
  · exact h.asType_static caller

end Handle

theorem Exec.Tracks.ofStatic {α : Type} {P : Account} [P.Regular] {x : Build α} (h : x.Static) :
    Exec.Tracks P (Exec.ofBuild x) (Exec.ofBuild x) :=
  .ofBuild fun t => Account.Regular.static (h t)

/-- Two ways to run code that track each other, with final fatal ends. -/
def Runner.Tracks (run run' : Runner) : Prop :=
  ∀ (code : Code) (args : List Value), Exec.Tracks Final (run code args) (run' code args)

variable {run run' : Runner} {P : Account} [P.Regular]

theorem leading_tracks (values : List Value) (count : Nat) :
    Exec.Tracks Final (leading values count) (leading values count) :=
  Exec.Tracks.ofOption _

theorem newThrowable_tracks (c : ClassDef) (message : String) :
    Exec.Tracks P (newThrowable c message) (newThrowable c message) :=
  .silent (fun _ _ => rfl) fun _ => Account.Regular.nil

theorem throwNew_tracks {α : Type} (c : ClassDef) (message : String) :
    Exec.Tracks Final (throwNew c message : Exec α) (throwNew c message) :=
  (newThrowable_tracks c message).bind fun _ => Exec.Tracks.refuse rfl

theorem asThrowable_tracks (failure : Failure) :
    Exec.Tracks Final (asThrowable failure) (asThrowable failure) := by
  unfold asThrowable
  split
  · exact Exec.Tracks.pure _
  · exact newThrowable_tracks _ _

theorem suppress_tracks (t other : Throwable) :
    Exec.Tracks P (t.suppress other) (t.suppress other) :=
  Exec.Tracks.change fun _ _ => rfl

theorem CallSite.target_tracks (site : CallSite) :
    Exec.Tracks P site.target site.target := by
  unfold CallSite.target
  refine .get fun s journal => ?_
  have same : State.target? { s with journal := journal } site = s.target? site := rfl
  rw [same]
  split
  · exact Exec.Tracks.pure _
  · exact Exec.Tracks.refuse rfl

namespace LoopPlan

theorem onLeading_tracks (tracks : Runner.Tracks run run') (h : Handle) (values : List Value) :
    Exec.Tracks Final (onLeading run.call h values) (onLeading run'.call h values) :=
  (leading_tracks values h.arity).bind fun _ => tracks _ _

theorem start_tracks (tracks : Runner.Tracks run run') (carried : List Kind) (args : List Value)
    (clauses : List (LoopClause × Option Slot)) :
    Exec.Tracks Final (start run.call carried args clauses)
      (start run'.call carried args clauses) := by
  induction clauses with
  | nil => exact Exec.Tracks.pure _
  | cons entry rest ih =>
    obtain ⟨c, slot⟩ := entry
    have initial : Exec.Tracks Final (c.init.mapM fun init => onLeading run.call init args)
        (c.init.mapM fun init => onLeading run'.call init args) := by
      cases c.init with
      | none => exact Exec.Tracks.pure _
      | some init => exact (onLeading_tracks tracks init args).bind fun _ => Exec.Tracks.pure _
    have others : ∀ here : List Value, Exec.Tracks Final
        (do return here ++ (← start run.call carried args rest))
        (do return here ++ (← start run'.call carried args rest)) :=
      fun here => ih.bind fun _ => Exec.Tracks.pure _
    unfold start
    refine initial.bind fun v => ?_
    cases slot with
    | none => exact others []
    | some s =>
      cases v with
      | some w => exact others [w]
      | none => exact (Exec.Tracks.ofOption _).bind fun k => others [.zero k]

theorem goesOn_tracks (tracks : Runner.Tracks run run') (frame : List Value)
    (clauses : List LoopClause) :
    Exec.Tracks Final (goesOn run.call frame clauses) (goesOn run'.call frame clauses) := by
  induction clauses with
  | nil => exact Exec.Tracks.pure _
  | cons c rest ih =>
    unfold goesOn
    split
    · exact ih
    · refine (onLeading_tracks tracks _ frame).bind fun v => ?_
      split
      · exact ih
      · exact Exec.Tracks.pure _

theorem advance_tracks (tracks : Runner.Tracks run run') (frame : List Value)
    (clauses : List (LoopClause × Option Slot)) :
    Exec.Tracks Final (advance run.call frame clauses) (advance run'.call frame clauses) := by
  induction clauses generalizing frame with
  | nil => exact Exec.Tracks.pure _
  | cons entry rest ih =>
    obtain ⟨c, slot⟩ := entry
    unfold advance
    split
    · exact ih frame
    · refine (onLeading_tracks tracks _ frame).bind fun v => ?_
      cases slot with
      | none => exact ih frame
      | some s =>
        refine Exec.Tracks.bind ?_ ih
        unfold store
        split
        · exact Exec.Tracks.pure _
        · exact Exec.Tracks.stuck

theorem finish_tracks (tracks : Runner.Tracks run run') (frame : List Value) (chosen : Option Nat)
    (index : Nat) (result : Value) (clauses : List LoopClause) :
    Exec.Tracks Final (finish run.call frame chosen index result clauses)
      (finish run'.call frame chosen index result clauses) := by
  induction clauses generalizing index result with
  | nil => exact Exec.Tracks.pure _
  | cons c rest ih =>
    unfold finish
    split
    · exact ih _ _
    · exact (onLeading_tracks tracks _ frame).bind fun v => ih _ _

theorem rounds_tracks (tracks : Runner.Tracks run run') (plan : LoopPlan) (limit : Nat)
    (frame : List Value) :
    Exec.Tracks Final (rounds run.call plan limit frame) (rounds run'.call plan limit frame) := by
  induction limit generalizing frame with
  | zero => exact Exec.Tracks.exhausted
  | succ n ih =>
    unfold rounds
    refine (goesOn_tracks tracks frame plan.clauses).bind fun another => ?_
    split
    · exact (advance_tracks tracks frame _).bind ih
    · exact finish_tracks tracks frame plan.result 0 .void plan.clauses

theorem run_tracks (tracks : Runner.Tracks run run') (plan : LoopPlan) (limit : Nat)
    (args : List Value) :
    Exec.Tracks Final (plan.run run.call limit args) (plan.run run'.call limit args) :=
  (start_tracks tracks plan.carried args _).bind fun _ => rounds_tracks tracks plan limit _

end LoopPlan

/-! Steps and programs. -/

theorem Failure.isFatal_eq_false {failure : Failure}
    (mild : ∀ text, (.error failure : Except Failure Value) ≠ .error (.fatal text)) :
    failure.isFatal = false := by
  cases failure with
  | fatal text => exact absurd rfl (mild text)
  | _ => rfl

namespace Step

theorem gather_tracks (frame : List Value) (slots : List Slot) :
    Exec.Tracks Final (gather frame slots) (gather frame slots) := by
  induction slots with
  | nil => exact Exec.Tracks.pure _
  | cons slot rest ih =>
    exact (Exec.Tracks.ofOption _).bind fun v => ih.bind fun _ => Exec.Tracks.pure _

theorem checkResult_tracks (kind : Kind) (v : Value) :
    Exec.Tracks Final (checkResult kind v) (checkResult kind v) := by
  unfold checkResult
  split
  · exact Exec.Tracks.pure _
  · split
    · exact Exec.Tracks.pure _
    · exact Exec.Tracks.refuse rfl

theorem spreadItem_tracks (index length : Nat) (v : Value) :
    Exec.Tracks Final (spreadItem index length v) (spreadItem index length v) := by
  unfold spreadItem
  split
  · split
    · exact Exec.Tracks.ofOption _
    · exact Exec.Tracks.refuse rfl
  · exact Exec.Tracks.refuse rfl

theorem runBranch_tracks (tracks : Runner.Tracks run run') (test target fallback : Handle)
    (args : List Value) :
    Exec.Tracks Final (runBranch run test target fallback args)
      (runBranch run' test target fallback args) := by
  refine (leading_tracks args test.arity).bind fun _ => ?_
  refine Exec.Tracks.bind (tracks _ _) fun outcome => ?_
  split
  · exact tracks _ _
  · exact tracks _ _

/-- A handler runs on what was thrown, never on a fatal failure. -/
theorem runCatching_tracks (tracks : Runner.Tracks run run') (target : Handle)
    (exception : RefType) (handler : Handle) (args : List Value) :
    Exec.Tracks Final (runCatching run target exception handler args)
      (runCatching run' target exception handler args) := by
  unfold runCatching
  refine .attemptFinal 0 (tracks _ _) (fun answer mild => ?_)
    fun text => ⟨Exec.refuse_givesUp text, Exec.refuse_givesUp text⟩
  cases answer with
  | ok v => exact Exec.Tracks.pure v
  | error failure =>
    dsimp only
    split
    · next eq => cases eq
    · split
      · split
        · exact Exec.Tracks.stuck
        · exact (leading_tracks args _).bind fun _ => tracks _ _
      · exact Exec.Tracks.refuse rfl
    · next eq =>
      cases eq
      exact Exec.Tracks.refuse (Failure.isFatal_eq_false mild)

/-- After a fatal failure of the cleanup nothing else is done. -/
theorem runCleanup_tracks (tracks : Runner.Tracks run run') (ret : Kind) (cleanup : Handle)
    (args : List Value) (failure : Option Throwable) (result : Value) :
    Exec.Tracks Final (runCleanup run ret cleanup args failure result)
      (runCleanup run' ret cleanup args failure result) := by
  unfold runCleanup
  dsimp only
  split
  · exact Exec.Tracks.stuck
  refine (leading_tracks args _).bind fun rest => ?_
  refine .attemptFinal 0 (tracks _ _) (fun answer mild => ?_) fun text => ?_
  · cases answer with
    | ok v => exact Exec.Tracks.pure v
    | error raised =>
      have notFatal := Failure.isFatal_eq_false mild
      dsimp only
      split
      · split
        · exact (suppress_tracks _ _).bind fun _ => Exec.Tracks.refuse notFatal
        · exact Exec.Tracks.refuse notFatal
      · exact Exec.Tracks.refuse notFatal
  · cases failure <;> exact ⟨Exec.refuse_givesUp text, Exec.refuse_givesUp text⟩

/-- A cleanup runs after a result and after other failures, never after a fatal one. -/
theorem runFinishing_tracks (tracks : Runner.Tracks run run') (target cleanup : Handle)
    (args : List Value) :
    Exec.Tracks Final (runFinishing run target cleanup args)
      (runFinishing run' target cleanup args) := by
  unfold runFinishing
  dsimp only
  refine .attemptFinal 0 (tracks _ _) (fun answer mild => ?_)
    fun text => ⟨Exec.refuse_givesUp text, Exec.refuse_givesUp text⟩
  cases answer with
  | ok v => exact runCleanup_tracks tracks _ _ _ _ _
  | error failure =>
    have notFatal := Failure.isFatal_eq_false mild
    dsimp only
    split
    · exact Exec.Tracks.refuse notFatal
    · refine (asThrowable_tracks failure).bind fun t => ?_
      exact (runCleanup_tracks tracks _ _ _ _ _).bind fun _ => Exec.Tracks.refuse notFatal

theorem perform_tracks (tracks : Runner.Tracks run run') (limit : Nat) (kind : Kind) (step : Step)
    (frame : List Value) :
    Exec.Tracks Final (perform run limit kind step frame) (perform run' limit kind step frame) := by
  unfold perform
  cases step with
  | const v => exact Exec.Tracks.pure v
  | convert slot source target =>
    exact (Exec.Tracks.ofOption _).bind fun v => Exec.Tracks.ofExcept (v.convert_ends _ _)
  | leaf action args =>
    exact (gather_tracks frame args).bind fun vs =>
      Exec.Tracks.bind (tracks _ _) fun v => checkResult_tracks kind v
  | call target args => exact (gather_tracks frame args).bind fun vs => tracks _ _
  | branch test target fallback args =>
    exact (gather_tracks frame args).bind fun vs => runBranch_tracks tracks _ _ _ vs
  | catching target exception handler args =>
    exact (gather_tracks frame args).bind fun vs => runCatching_tracks tracks _ _ _ vs
  | finishing target cleanup args =>
    exact (gather_tracks frame args).bind fun vs => runFinishing_tracks tracks _ _ vs
  | loop plan args =>
    exact (gather_tracks frame args).bind fun vs => plan.run_tracks tracks limit vs
  | collect element args =>
    exact (gather_tracks frame args).bind fun vs => Exec.Tracks.pure _
  | spread slot index length =>
    exact (Exec.Tracks.ofOption _).bind fun v => spreadItem_tracks index length v
  | dynamic site args =>
    exact (CallSite.target_tracks site).bind fun target =>
      (gather_tracks frame args).bind fun vs => tracks _ _

end Step

namespace Program

theorem fill_tracks (tracks : Runner.Tracks run run') (limit : Nat) (frame : List Value)
    (bindings : List Binding) :
    Exec.Tracks Final (fill run limit frame bindings) (fill run' limit frame bindings) := by
  induction bindings generalizing frame with
  | nil => exact Exec.Tracks.pure frame
  | cons b rest ih =>
    exact (Step.perform_tracks tracks limit b.kind b.step frame).bind fun v => ih _

theorem perform_tracks (tracks : Runner.Tracks run run') (limit : Nat) (p : Program)
    (args : List Value) :
    Exec.Tracks Final (p.perform run limit args) (p.perform run' limit args) := by
  refine (fill_tracks tracks limit args p.bindings).bind fun frame => ?_
  split
  · exact Exec.Tracks.ofOption _
  · exact Exec.Tracks.pure _

end Program

/-! Actions. -/

theorem receiver_tracks (owner : ClassDef) (args : List Value) :
    Exec.Tracks Final (receiver owner args) (receiver owner args) := by
  unfold receiver
  split
  · exact Exec.Tracks.pure _
  · exact throwNew_tracks _ _
  · exact throwNew_tracks _ _
  · exact Exec.Tracks.refuse rfl

theorem fieldIndex_tracks (o : ObjectRef) (name : String) :
    Exec.Tracks Final (fieldIndex o name) (fieldIndex o name) := by
  unfold fieldIndex
  split
  · exact Exec.Tracks.pure _
  · exact Exec.Tracks.refuse rfl

theorem ObjectRef.setField_tracks (o : ObjectRef) (index : Nat) (v : Value) :
    Exec.Tracks P (o.setField index v) (o.setField index v) := by
  refine .silent (fun s journal => ?_) fun s => ?_ <;> unfold setField
  · have same : State.fields { s with journal := journal } o = s.fields o := rfl
    rw [same]
    dsimp only
    split <;> rfl
  · dsimp only
    split <;> exact Account.Regular.nil

theorem newObject_tracks (c : ClassDef) (fields : List Value) :
    Exec.Tracks P (newObject c fields) (newObject c fields) :=
  .silent (fun _ _ => rfl) fun _ => Account.Regular.nil

theorem Intrinsic.perform_tracks (f : Intrinsic) (args : List Value) :
    Exec.Tracks Final (f.perform args) (f.perform args) := by
  unfold perform
  cases f with
  | throwArgument =>
    dsimp only
    split
    · exact Exec.Tracks.refuse rfl
    · exact throwNew_tracks _ _
    · exact throwNew_tracks _ _
    · exact Exec.Tracks.refuse rfl
  | arrayItem =>
    dsimp only
    split
    · split
      · exact Exec.Tracks.pure _
      · exact throwNew_tracks _ _
    · exact throwNew_tracks _ _
    · exact Exec.Tracks.refuse rfl
    · exact Exec.Tracks.stuck
  | arrayLength =>
    dsimp only
    split
    · exact Exec.Tracks.pure _
    · exact throwNew_tracks _ _
    · exact Exec.Tracks.refuse rfl
    · exact Exec.Tracks.stuck
  | intLess =>
    dsimp only
    split
    · exact Exec.Tracks.pure _
    · exact Exec.Tracks.pure _
    · exact Exec.Tracks.stuck
  | intIncrement =>
    dsimp only
    split
    · exact Exec.Tracks.pure _
    · exact Exec.Tracks.stuck
  | lambda name implementation instantiated =>
    have bound := Build.static_allocate (Blueprint.insertArguments_ends implementation 0 args)
    refine (Exec.Tracks.ofStatic bound).bind fun h => ?_
    refine (Exec.Tracks.ofStatic (h.asType_static instantiated)).bind fun a => ?_
    exact Exec.Tracks.pure _

theorem Action.perform_tracks {native native' : HostFunction → List Value → Exec Value}
    (host : ∀ f args, Exec.Tracks Final (native f args) (native' f args)) (action : Action)
    (args : List Value) :
    Exec.Tracks Final (action.perform native args) (action.perform native' args) := by
  unfold perform
  cases action with
  | host f => exact host f args
  | intrinsic f => exact f.perform_tracks args
  | virtual owner name =>
    refine (receiver_tracks owner args).bind fun o => ?_
    split
    · exact host _ args
    · exact Exec.Tracks.refuse rfl
  | getField owner name =>
    refine (receiver_tracks owner args).bind fun o => ?_
    refine (fieldIndex_tracks o name).bind fun index => ?_
    refine .get fun s journal => ?_
    have same : State.field? { s with journal := journal } o index = s.field? o index := rfl
    rw [same]
    split
    · exact Exec.Tracks.pure _
    · exact Exec.Tracks.refuse rfl
  | setField owner name =>
    refine (receiver_tracks owner args.dropLast).bind fun o => ?_
    refine (fieldIndex_tracks o name).bind fun index => ?_
    refine (o.setField_tracks index _).bind fun done => ?_
    split
    · exact Exec.Tracks.pure _
    · exact Exec.Tracks.refuse rfl
  | construct c =>
    dsimp only
    split
    · exact Exec.Tracks.refuse rfl
    · exact (newObject_tracks c args).bind fun o => Exec.Tracks.pure _

/-! Invocations from outside. -/

namespace Handle

theorem invokeExact_tracks (tracks : Runner.Tracks run run') (h : Handle) (args : List Value) :
    Exec.Tracks Final (h.invokeExact run args) (h.invokeExact run' args) :=
  (Exec.Tracks.ofExcept (h.checkArguments_ends args)).bind fun _ => tracks _ _

theorem invokeAs_tracks (tracks : Runner.Tracks run run') (h : Handle) (caller : Signature)
    (args : List Value) :
    Exec.Tracks Final (h.invokeAs run caller args) (h.invokeAs run' caller args) :=
  (Exec.Tracks.ofStatic (h.adaptedTo_static caller)).bind fun a =>
    a.invokeExact_tracks tracks args

theorem invoke_tracks (tracks : Runner.Tracks run run') (h : Handle) (args : List Value) :
    Exec.Tracks Final (h.invoke run args) (h.invoke run' args) := by
  unfold invoke
  dsimp only
  split
  · exact Exec.Tracks.refuse rfl
  · exact (Exec.Tracks.ofExcept (Signature.ofValues_ends _ args)).bind fun caller =>
      h.invokeAs_tracks tracks caller args

end Handle

namespace Linker

theorem accept_tracks (l : Linker) (d : Descriptor) (v : Value) :
    Exec.Tracks Final (l.accept d v) (l.accept d v) := by
  unfold accept
  split
  · exact (Exec.Tracks.ofExcept (checkSignature_ends d _)).bind fun _ => Exec.Tracks.pure _
  · split
    · refine (Exec.Tracks.ofExcept (checkSignature_ends d _)).bind fun _ => ?_
      exact .silent (fun _ _ => rfl) fun _ => Account.Regular.nil
    · exact Exec.Tracks.refuse rfl
  · exact Exec.Tracks.refuse rfl

/-- A fatal failure of a bootstrap is not wrapped. -/
theorem resolve_tracks (l : Linker) (d : Descriptor) {x y : Exec Value}
    (hx : Exec.Tracks Final x y) : Exec.Tracks Final (l.resolve d x) (l.resolve d y) := by
  unfold resolve
  refine .attemptFinal 0 hx (fun answer mild => ?_)
    fun text => ⟨Exec.refuse_givesUp text, Exec.refuse_givesUp text⟩
  cases answer with
  | ok v => exact l.accept_tracks d v
  | error cause =>
    refine Exec.Tracks.refuse ?_
    cases cause with
    | fatal text => exact absurd rfl (mild text)
    | _ => rfl

theorem publish_tracks (l : Linker) (point : UInt64) (site : CallSite) :
    Exec.Tracks Final (l.publish point site) (l.publish point site) := by
  intro s journal
  have same : l.linked? { s with journal := journal } point = l.linked? s point := rfl
  unfold publish
  rw [same]
  split
  · exact ⟨[], journal, rfl, rfl, Account.Regular.nil⟩
  · exact ⟨[.published l.id point site], _, rfl, rfl, .single rfl⟩

theorem link_tracks (l : Linker) (point : UInt64) (d : Descriptor) {x y : Exec Value}
    (hx : Exec.Tracks Final x y) :
    Exec.Tracks Final (l.link point d x) (l.link point d y) := by
  unfold link
  refine .get fun s journal => ?_
  have same : l.linked? { s with journal := journal } point = l.linked? s point := rfl
  rw [same]
  split
  · exact Exec.Tracks.pure _
  · exact (l.resolve_tracks d hx).bind fun site => l.publish_tracks point site

theorem unregister_tracks (l : Linker) (point : UInt64) :
    Exec.Tracks Peaceful (l.unregister point) (l.unregister point) := by
  intro s journal
  have same : l.linked? { s with journal := journal } point = l.linked? s point := rfl
  unfold unregister
  rw [same]
  split
  · next site _ =>
    exact ⟨[.forgotten l.id point site], _, rfl, rfl, List.forall_mem_singleton.2 rfl⟩
  · exact ⟨[], journal, rfl, rfl, List.forall_mem_nil _⟩

end Linker

/-! Operations that run no code. -/

/-- Nothing but host code ends fatally. -/
theorem Exec.Tracks.quiet {α : Type} (c : Checked α) :
    Exec.Tracks Peaceful (Exec.ofChecked c) (Exec.ofChecked c) :=
  .ofChecked (List.forall_mem_nil _)

theorem Exec.Tracks.quietBuild {α : Type} (b : Build α) :
    Exec.Tracks Peaceful (Exec.ofBuild b) (Exec.ofBuild b) :=
  .ofBuild fun _ => List.forall_mem_nil _

theorem CallSite.store_tracks (site : CallSite) (target : Handle) :
    Exec.Tracks Peaceful (site.store target) (site.store target) :=
  (Exec.Tracks.change fun _ _ => rfl).bind fun _ =>
    .record (List.forall_mem_singleton.2 rfl)

namespace CallSite

theorem setTargetFenced_tracks (site : CallSite) (target : Handle) :
    Exec.Tracks Peaceful (site.setTargetFenced target) (site.setTargetFenced target) :=
  (Exec.Tracks.ofExcept (site.checkRetarget_ends target)).bind fun _ => site.store_tracks target

theorem setTargetPlain_tracks (site : CallSite) (target : Handle) :
    Exec.Tracks Peaceful (site.setTargetPlain target) (site.setTargetPlain target) := by
  unfold setTargetPlain
  split
  · exact site.setTargetFenced_tracks target
  · exact site.setTargetFenced_tracks target

theorem setTarget_tracks (site : CallSite) (target : Handle) :
    Exec.Tracks Peaceful (site.setTarget target) (site.setTarget target) := by
  unfold setTarget
  split
  · exact site.setTargetFenced_tracks target
  · exact site.setTargetPlain_tracks target
  · exact site.setTargetPlain_tracks target

end CallSite

theorem withCache_tracks (cache : Nat)
    (f : SharedHandles → Build (Handle × SharedHandles)) :
    Exec.Tracks Peaceful (withCache cache f) (withCache cache f) := by
  unfold withCache
  refine .get fun s journal => ?_
  refine (Exec.Tracks.ofOption s.caches[cache]?).bind fun c => ?_
  refine (Exec.Tracks.quietBuild (f c)).bind fun r => ?_
  exact Exec.Tracks.bind (.change fun _ _ => rfl) fun _ => .pure _

namespace Lookup

theorem find_tracks (l : Lookup) (request : MemberRequest) :
    Exec.Tracks Peaceful (l.find request) (l.find request) := by
  unfold find checkGate
  refine Exec.Tracks.bind ?_ fun _ => ?_
  · split
    · refine Exec.Tracks.bind (.record ?_) fun _ => Exec.Tracks.quiet _
      exact List.forall_mem_singleton.2 rfl
    · exact .pure _
  refine .get fun s journal => ?_
  refine (Exec.Tracks.ofOption s.registries[l.registry]?).bind fun r => ?_
  refine Exec.Tracks.bind (Exec.Tracks.quiet _) fun member => ?_
  have made := Exec.Tracks.quietBuild (Blueprint.ofAction member.signature member.action).make
  dsimp only
  split
  · split
    · exact Exec.Tracks.quiet _
    · exact made
  · exact made

theorem findMember_tracks (l : Lookup) (query : MemberQuery) :
    Exec.Tracks Peaceful (l.findMember query) (l.findMember query) := by
  refine (l.find_tracks query.request).bind fun h => ?_
  dsimp only
  split
  · exact Exec.Tracks.quiet _
  · exact .pure h

end Lookup

/-- Whether an operation runs a handle, an action or a bootstrap. -/
def Operation.runsCode : Operation → Bool
  | .perform .. | .invokeExact .. | .invoke .. | .invokeAs .. | .bootstrap .. | .resolve ..
  | .link .. | .invokePoint .. => true
  | _ => false

/-- Where no code is run, no host code ends. -/
theorem Operation.answer_peaceful (question : Operation) (quiet : question.runsCode = false) :
    Exec.Tracks Peaceful (question.answer run) (question.answer run') := by
  cases question with
  | perform | invokeExact | invoke | invokeAs | bootstrap | resolve | link | invokePoint =>
    cases quiet
  | construct c => exact (Exec.Tracks.quietBuild c.build).bind fun _ => .pure _
  | lambdaFactory name factory implementation instantiated =>
    exact (Exec.Tracks.quietBuild _).bind fun _ => .pure _
  | newObject c fields => exact (newObject_tracks c fields).bind fun _ => .pure _
  | newThrowable c message => exact (newThrowable_tracks c message).bind fun _ => .pure _
  | getField o index => exact .get fun s journal => .pure _
  | setField o index v => exact (o.setField_tracks index v).bind fun _ => .pure _
  | suppress t other => exact (suppress_tracks t other).bind fun _ => .pure _
  | newSite kind target =>
    exact Exec.Tracks.bind (.silent (fun _ _ => rfl) fun _ => List.forall_mem_nil _) fun _ =>
      .pure _
  | newUnlinkedSite kind signature =>
    exact Exec.Tracks.bind (.silent (fun _ _ => rfl) fun _ => List.forall_mem_nil _) fun _ =>
      .pure _
  | siteTarget site => exact site.target_tracks.bind fun _ => .pure _
  | setTarget site target => exact (site.setTarget_tracks target).bind fun _ => .pure _
  | setTargetPlain site target => exact (site.setTargetPlain_tracks target).bind fun _ => .pure _
  | setTargetFenced site target =>
    exact (site.setTargetFenced_tracks target).bind fun _ => .pure _
  | registerStatic registry owner name member =>
    exact Exec.Tracks.bind (.change fun _ _ => rfl) fun _ => .pure _
  | registerClass registry c =>
    exact Exec.Tracks.bind (.change fun _ _ => rfl) fun _ => .pure _
  | find lookup request => exact (lookup.find_tracks request).bind fun _ => .pure _
  | findMember lookup query => exact (lookup.findMember_tracks query).bind fun _ => .pure _
  | cachedConstant cache kind v => exact (withCache_tracks cache _).bind fun _ => .pure _
  | cachedIdentity cache kind => exact (withCache_tracks cache _).bind fun _ => .pure _
  | clearCache cache => exact Exec.Tracks.bind (.change fun _ _ => rfl) fun _ => .pure _
  | unregister linker id => exact (linker.unregister_tracks id).bind fun _ => .pure _
  | count counter =>
    refine .get fun s journal => ?_
    refine (Exec.Tracks.ofOption s.counters[counter]?).bind fun found => ?_
    exact Exec.Tracks.bind (.change fun _ _ => rfl) fun _ => .pure _

/-! Host code. -/

mutual

/-- Host code that passes on every fatal failure of the code that it runs. -/
def HostTask.Propagates : HostTask → Prop
  | .done _ => True
  | .ask question resume => question.Propagates ∧
    (question.runsCode = true → ∀ text,
      resume (.error (.fatal text)) = .done (.error (.fatal text))) ∧
    ∀ answer, (resume answer).Propagates

/-- An operation whose bootstrap, if it has one, passes on every fatal failure. -/
def Operation.Propagates : Operation → Prop
  | .bootstrap lookup point method => (method lookup point).Propagates
  | .resolve linker point method | .link linker _ point method
  | .invokePoint linker _ point method _ => (method linker.lookup point).Propagates
  | _ => True

end

/-- A host whose functions pass on every fatal failure. -/
def Host.Propagates (host : Host) : Prop := ∀ f args, (host f args).Propagates

/-- Host code that ends fatally halts the run. -/
theorem final_ended (result : Except Failure Value) :
    Final (halt? (Checked.ofExcept result)) [.ended result] := by
  cases result with
  | ok v => exact .single rfl
  | error failure =>
    cases fatal : failure.isFatal with
    | true =>
      obtain ⟨text, rfl⟩ := Failure.isFatal_iff.1 fatal
      exact .inr ⟨text, [], 0, rfl, List.forall_mem_nil _, rfl⟩
    | false =>
      refine .ofPeaceful (List.forall_mem_singleton.2 fatal) fun text halts => ?_
      cases halts
      cases fatal

theorem HostTask.done_givesUp (run : Runner) (text : String) :
    Exec.GivesUp text 1 ((HostTask.done (.error (.fatal text))).run run) :=
  fun _ => rfl

theorem announce_tracks {lookup : Lookup} {point : Descriptor} {x y : Exec Value}
    (h : Exec.Tracks Final x y) :
    Exec.Tracks Final (announce lookup point x) (announce lookup point y) :=
  Exec.Tracks.bind (.record (.single rfl)) fun _ => h

mutual

/-- A fatal end of host code is final for all that host code does. -/
theorem HostTask.run_tracks {task : HostTask} (tracks : Runner.Tracks run run')
    (propagates : task.Propagates) : Exec.Tracks Final (task.run run) (task.run run') := by
  match task with
  | .done result =>
    intro s journal
    exact ⟨[.ended result], .ended result :: journal, rfl, rfl, final_ended result⟩
  | .ask question resume =>
    cases code : question.runsCode with
    | true =>
      refine .attemptFinal 1 (Operation.answer_tracks tracks code propagates.1)
        (fun answer _ => HostTask.run_tracks tracks (propagates.2.2 answer)) fun text => ?_
      rw [propagates.2.1 code text]
      exact ⟨HostTask.done_givesUp run text, HostTask.done_givesUp run' text⟩
    | false =>
      exact (question.answer_peaceful code).attemptPeaceful.bind fun answer =>
        HostTask.run_tracks tracks (propagates.2.2 answer)
termination_by structural task

/-- A fatal end of host code is final for all that an operation runs. -/
theorem Operation.answer_tracks {question : Operation} (tracks : Runner.Tracks run run')
    (code : question.runsCode = true) (propagates : question.Propagates) :
    Exec.Tracks Final (question.answer run) (question.answer run') := by
  match question with
  | .perform action args => exact tracks _ _
  | .invokeExact target args => exact target.invokeExact_tracks tracks args
  | .invoke target args => exact target.invoke_tracks tracks args
  | .invokeAs target caller args => exact target.invokeAs_tracks tracks caller args
  | .bootstrap lookup point method =>
    exact announce_tracks (HostTask.run_tracks tracks propagates)
  | .resolve linker point method =>
    exact (linker.resolve_tracks point
      (announce_tracks (HostTask.run_tracks tracks propagates))).bind fun _ => .pure _
  | .link linker id point method =>
    exact (linker.link_tracks id point
      (announce_tracks (HostTask.run_tracks tracks propagates))).bind fun _ => .pure _
  | .invokePoint linker id point method args =>
    refine (linker.link_tracks id point
      (announce_tracks (HostTask.run_tracks tracks propagates))).bind fun site => ?_
    exact site.target_tracks.bind fun target => target.invokeExact_tracks tracks args
termination_by structural question

end

/-! The machine. -/

theorem callHost_tracks {host : Host} (propagates : host.Propagates)
    (tracks : Runner.Tracks run run') (f : HostFunction) (args : List Value) :
    Exec.Tracks Final (callHost host run f args) (callHost host run' f args) :=
  Exec.Tracks.bind (.record (.single rfl)) fun _ => HostTask.run_tracks tracks (propagates f args)

/-- Notes each run of marked code in the journal, as a call of the function that is its mark. -/
def Runner.noting (mark : Code → Option HostFunction) (run : Runner) : Runner := fun code args =>
  match mark code with
  | some f => do
    Exec.record (.native f args)
    run code args
  | none => run code args

theorem Runner.noting_tracks (mark : Code → Option HostFunction)
    (tracks : Runner.Tracks run run') : Runner.Tracks (Runner.noting mark run) run' := by
  intro code args
  unfold Runner.noting
  split
  · exact .noted (.single rfl) (tracks code args)
  · exact tracks code args

theorem runWith_noting_tracks {host : Host} (propagates : host.Propagates)
    (mark : Code → Option HostFunction) (n : Nat) :
    Runner.Tracks (runWith (Runner.noting mark) host n) (runCode host n) := by
  induction n with
  | zero => exact fun _ _ => .exhausted
  | succ n ih =>
    refine Runner.noting_tracks mark fun code args => ?_
    cases code with
    | program s p => exact p.perform_tracks ih n args
    | action a => exact a.perform_tracks (callHost_tracks propagates ih) args

/-- Fatal failures end a run: whatever code is noted, nothing is recorded after the first end of
host code with a fatal failure but the ends of the host code around it with the same failure, and
that failure is the outcome. No other run has a fatal outcome. Noting changes nothing but the
journal. -/
theorem fatal_failures_are_final {host : Host} (hostPropagates : host.Propagates)
    {question : Operation} (code : question.runsCode = true) (propagates : question.Propagates)
    (mark : Code → Option HostFunction) (n : Nat) (s : State) :
    ∃ outcome t es journal,
      question.answer (runWith (Runner.noting mark) host n) s = (outcome, t) ∧
      question.answer (runCode host n) s = (outcome, { t with journal := journal }) ∧
      t.journal = es ++ s.journal ∧
      (∀ text, Event.fatalEnd text ∈ es → outcome = .error (.failed (.fatal text)) ∧
        ∃ count before, es = List.replicate (count + 1) (Event.fatalEnd text) ++ before ∧
          ∀ e ∈ before, e.isFatalEnd = false) ∧
      ∀ text, outcome = .error (.failed (.fatal text)) → Event.fatalEnd text ∈ es := by
  obtain ⟨es, journal, same, grown, account⟩ :=
    Operation.answer_tracks (runWith_noting_tracks hostPropagates mark n) code propagates s
      s.journal
  refine ⟨_, _, es, journal, rfl, same, grown, ?_⟩
  generalize (question.answer (runWith (Runner.noting mark) host n) s).1 = outcome at account
  rcases account with ⟨peaceful, mild⟩ | ⟨text, before, count, halts, peaceful, rfl⟩
  · refine ⟨fun text mem => ?_, fun text halts => ?_⟩
    · cases peaceful _ mem
    · subst halts
      exact absurd rfl (mild text)
  · have fatal : outcome = .error (.failed (.fatal text)) := by
      cases outcome with
      | ok v => cases halts
      | error e => rw [Option.some.inj halts]
    refine ⟨fun other mem => ?_, fun other halts => ?_⟩
    · rcases List.mem_append.1 mem with mem | mem
      · have same := List.eq_of_mem_replicate mem
        cases same
        exact ⟨fatal, count, before, rfl, peaceful⟩
      · cases peaceful _ mem
    · rw [fatal] at halts
      cases halts
      rw [List.replicate_succ]
      exact List.mem_cons_self

/-- A host whose function 0 stops the program and whose other functions return 7. -/
def Host.stopping : Host := fun f _ =>
  if f.id = 0 then .fail (.fatal "halt") else .value (.int 7)

theorem Host.stopping_propagates : Host.stopping.Propagates := by
  intro f args
  unfold Host.stopping
  split <;> trivial

/-- A function of the host as a handle. -/
def Handle.ofHost (id : Nat) (signature : Signature) : Handle :=
  ⟨id, signature, (Blueprint.ofAction signature (.host ⟨id, "f"⟩)).program, false⟩

/-- The stopping function under a cleanup, under a handler of every throwable. -/
def Handle.stoppingUnderCleanup : Handle :=
  let signature : Signature := ⟨.prim .int, []⟩
  let cleanup := Handle.ofHost 1 ⟨.prim .int, [.throwable, .prim .int]⟩
  let handler := Handle.ofHost 2 ⟨.prim .int, [.throwable]⟩
  let finishing : Handle :=
    ⟨3, signature, .single signature (.finishing (Handle.ofHost 0 signature) cleanup), false⟩
  ⟨4, signature, .single signature (.catching finishing .throwable handler), false⟩

theorem fatal_failures_are_final_underCleanup :
    Host.stopping.Propagates ∧ ∃ t journal,
      (Operation.invokeExact .stoppingUnderCleanup []).answer
          (runWith (Runner.noting fun _ => none) .stopping 9) .empty =
        (.error (.failed (.fatal "halt")), t) ∧
      (Operation.invokeExact .stoppingUnderCleanup []).answer (runCode .stopping 9) .empty =
        (.error (.failed (.fatal "halt")), { t with journal := journal }) ∧
      t.journal = [.fatalEnd "halt", .native ⟨0, "f"⟩ []] := by
  obtain ⟨outcome, t, es, journal, noted, plain, -⟩ :=
    @fatal_failures_are_final _ Host.stopping_propagates
      (.invokeExact .stoppingUnderCleanup []) rfl trivial (fun _ => none) 9 .empty
  have ran : (Operation.invokeExact .stoppingUnderCleanup []).answer
      (runWith (Runner.noting fun _ => none) .stopping 9) .empty =
    (.error (.failed (.fatal "halt")),
      { State.empty with journal := [.fatalEnd "halt", .native ⟨0, "f"⟩ []] }) := rfl
  cases ran.symm.trans noted
  exact ⟨Host.stopping_propagates, _, journal, ran, plain, rfl⟩

end TypedHandles
