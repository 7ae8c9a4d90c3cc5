import TypedHandles.Proofs.Accessors
import TypedHandles.Proofs.Lambdas
import TypedHandles.Proofs.Recording
import TypedHandles.Proofs.SignatureEdits
import TypedHandles.Proofs.VariableArity
import TypedHandles.Proofs.Watching

/-!
How invocations fail. A run of code fails with what was thrown, with a cast, with a wrong count,
with a call site that is not linked, or fatally, and with one thing more: an accessor looks its
member up in the class of the receiver, and it may not be there (`Code.Misses`).

An invocation from outside may fail ahead of any run. It takes down the signature of its arguments,
for the failure to report or for the adapter to convert from, and that may be no signature at all:
there may be a `void` argument, or too many of them. Then the refusal of the signature is reported.
`Handle.LeaksExact` and `Handle.LeaksLoose` say where that happens, and it happens nowhere else.
-/
namespace TypedHandles

namespace Failure

/-- Whether a failure is one of those that invocations are meant to end with. -/
def isInvocation : Failure → Bool
  | .thrown _ | .classCast .. | .signatureMismatch .. | .wrongArgumentCount ..
  | .unlinkedCallSite _ | .fatal _ => true
  | _ => false

theorem isInvocation_of_not_isStatic {f : Failure} (h : f.isStatic = false) :
    f.isInvocation = true := by
  cases f <;> first | rfl | cases h

end Failure

/-- Whether an object has no field of a name: its class declares none itself, or the object was made
without a value for it. -/
def State.LacksField (s : State) (o : ObjectRef) (name : String) : Prop :=
  ∀ i, o.cls.fieldIndex? name = some i → s.field? o i = none

/-- A virtual call, a getter or a setter that is called in a state and does not find its member in
the receiver, whatever the class has that it was found in; and how it fails. -/
inductive Code.Misses : Failure → Code → List Value → State → Prop
  | virtual {owner : ClassDef} {name : String} {o : ObjectRef} {s : State} (rest : List Value) :
      o.cls.findMethod? name = none →
      Misses (noMember o name) (.action (.virtual owner name)) (.object o :: rest) s
  | getField {owner : ClassDef} {name : String} {o : ObjectRef} {s : State} (rest : List Value) :
      s.LacksField o name →
      Misses (noMember o name) (.action (.getField owner name)) (.object o :: rest) s
  | setField {owner : ClassDef} {name : String} {o : ObjectRef} {s : State} (rest : List Value)
      (v : Value) : s.LacksField o name →
      Misses (noMember o name) (.action (.setField owner name)) (.object o :: rest ++ [v]) s

/-- A failure of a run in which no accessor misses its member with the failure `missed`: it is
another one, or one of those that invocations are meant to end with. -/
def Failure.OfRun (missed f : Failure) : Prop := f = missed → f.isInvocation = true

theorem Failure.OfRun.invocation {missed f : Failure} (h : f.isInvocation = true) :
    OfRun missed f := fun _ => h

/-- A computation fails in no way but those that `P` names. -/
def Exec.FailsAs {α : Type} (P : Failure → Prop) (x : Exec α) : Prop :=
  ∀ s f, (x s).1 = .error (.failed f) → P f

namespace Exec.FailsAs

variable {α β : Type} {P : Failure → Prop} {x : Exec α}

/-- A computation that always has a result. -/
theorem returns (h : ∀ s, ∃ a, (x s).1 = .ok a) : FailsAs P x := by
  intro s f failed
  obtain ⟨a, done⟩ := h s
  cases done.symm.trans failed

theorem pure (a : α) : FailsAs P (Pure.pure a : Exec α) := returns fun _ => ⟨a, rfl⟩

theorem stuck : FailsAs P (throw .stuck : Exec α) := fun _ _ => nofun

theorem exhausted : FailsAs P (throw .exhausted : Exec α) := fun _ _ => nofun

theorem ofOption (o : Option α) : FailsAs P (Exec.ofOption o) := by
  cases o with
  | some a => exact pure a
  | none => exact stuck

theorem refuse {f : Failure} (h : P f) : FailsAs P (Exec.refuse f : Exec α) := by
  intro _ _ failed
  cases failed
  exact h

theorem ofExcept {c : Except Failure α} (h : ∀ f, c = .error f → P f) :
    FailsAs P (Exec.ofExcept c) := by
  cases c with
  | ok a => exact pure a
  | error f => exact refuse (h f rfl)

theorem ofBuild {b : Build α} (h : ∀ t f, (b t).1 = .error (.failed f) → P f) :
    FailsAs P (Exec.ofBuild b) :=
  fun s f failed => h s.handles f failed

theorem bind {f : α → Exec β} (hx : FailsAs P x) (hf : ∀ a, FailsAs P (f a)) :
    FailsAs P (x >>= f) := by
  intro s failure failed
  cases result : x s with
  | mk outcome t =>
    cases outcome with
    | error e =>
      rw [bind_of_error result] at failed
      cases failed
      exact hx s failure (congrArg Prod.fst result)
    | ok a =>
      rw [bind_of_ok result] at failed
      exact hf a t failure failed

/-- What goes on after a failure goes on after one of those named. -/
theorem attempt {f : Except Failure α → Exec β} (hx : FailsAs P x)
    (ok : ∀ a, FailsAs P (f (.ok a)))
    (error : ∀ failure, P failure → FailsAs P (f (.error failure))) :
    FailsAs P (x.attempt >>= f) := by
  intro s failure failed
  have attempted := attempt_apply x s
  match result : x s with
  | (.ok a, t) =>
    rw [result] at attempted
    rw [bind_of_ok attempted] at failed
    exact ok a t failure failed
  | (.error (.failed cause), t) =>
    rw [result] at attempted
    rw [bind_of_ok attempted] at failed
    exact error cause (hx s cause (congrArg Prod.fst result)) t failure failed
  | (.error .stuck, t) | (.error .exhausted, t) =>
    rw [result] at attempted
    rw [bind_of_error attempted] at failed
    cases failed

end Exec.FailsAs

open Failure (OfRun)

/-- A way to run code that fails as runs do in which no accessor misses with the given failure. -/
def Runner.FailsAsRun (missed : Failure) (run : Runner) : Prop :=
  ∀ (code : Code) (args : List Value), Exec.FailsAs (OfRun missed) (run code args)

/-- A host whose functions throw or give up when they fail, and fail in no other way. -/
def Host.FailsPlainly (host : Host) : Prop :=
  ∀ (n : Nat) (f : HostFunction) (args : List Value),
    Exec.FailsAs (·.isStatic = false) (callHost host (runCode host n) f args)

variable {missed : Failure} {run : Runner}

/-! Values. -/

theorem Value.CastFails.ofRun {x : Except Failure Value} {f : Failure}
    (h : (∃ w, x = .ok w) ∨ Value.CastFails x) (failed : x = .error f) : f.isInvocation = true := by
  subst failed
  rcases h with ⟨w, impossible⟩ | ⟨found, wanted, cast⟩
  · cases impossible
  · cases cast
    rfl

theorem castFailure_ofRun (v : Value) (k : Kind) : OfRun missed (v.castFailure k) :=
  .invocation rfl

/-- A value that is not fitted to a kind of a parameter fails with a cast. -/
theorem Value.coerce_fails {v : Value} {k : Kind} {f : Failure} (given : k ≠ .void)
    (failed : v.coerce k = .error f) : f.isInvocation = true := by
  match k with
  | .void => exact absurd rfl given
  | .prim p => exact Value.CastFails.ofRun (Value.unbox_eq_ok_or_castFails v p) failed
  | .ref t =>
    unfold Value.coerce at failed
    dsimp only at failed
    split at failed
    · split at failed
      · exact Value.CastFails.ofRun (Value.widen_eq_ok_or_castFails v _) failed
      · cases failed
        rfl
    · exact Value.CastFails.ofRun (Value.checkCast_eq_ok_or_castFails v t) failed

theorem throwNew_failsAs {α : Type} (c : ClassDef) (message : String) :
    Exec.FailsAs (OfRun missed) (throwNew c message : Exec α) :=
  (Exec.FailsAs.returns fun _ => ⟨_, rfl⟩).bind fun _ => .refuse (.invocation rfl)

theorem asThrowable_failsAs (failure : Failure) :
    Exec.FailsAs (OfRun missed) (asThrowable failure) := by
  unfold asThrowable
  split
  · exact .pure _
  · exact .returns fun _ => ⟨_, rfl⟩

theorem CallSite.target_failsAs (site : CallSite) : Exec.FailsAs (OfRun missed) site.target := by
  refine Exec.FailsAs.bind (.returns fun s => ⟨s, rfl⟩) fun s => ?_
  split
  · exact .pure _
  · exact .refuse (.invocation rfl)

/-! Loops. -/

namespace LoopPlan

theorem onLeading_failsAs (fails : run.FailsAsRun missed) (h : Handle) (values : List Value) :
    Exec.FailsAs (OfRun missed) (onLeading run.call h values) :=
  (Exec.FailsAs.ofOption _).bind fun _ => fails _ _

theorem start_failsAs (fails : run.FailsAsRun missed) (carried : List Kind) (args : List Value)
    (clauses : List (LoopClause × Option Slot)) :
    Exec.FailsAs (OfRun missed) (start run.call carried args clauses) := by
  induction clauses with
  | nil => exact .pure _
  | cons entry rest ih =>
    obtain ⟨c, slot⟩ := entry
    have initial : Exec.FailsAs (OfRun missed)
        (c.init.mapM fun init => onLeading run.call init args) := by
      cases c.init with
      | none => exact .pure _
      | some init => exact (onLeading_failsAs fails init args).bind fun _ => .pure _
    have others : ∀ here : List Value,
        Exec.FailsAs (OfRun missed) (do return here ++ (← start run.call carried args rest)) :=
      fun here => ih.bind fun _ => .pure _
    unfold start
    refine initial.bind fun v => ?_
    cases slot with
    | none => exact others []
    | some s =>
      cases v with
      | some w => exact others [w]
      | none => exact (Exec.FailsAs.ofOption _).bind fun k => others [.zero k]

theorem goesOn_failsAs (fails : run.FailsAsRun missed) (frame : List Value)
    (clauses : List LoopClause) : Exec.FailsAs (OfRun missed) (goesOn run.call frame clauses) := by
  induction clauses with
  | nil => exact .pure _
  | cons c rest ih =>
    unfold goesOn
    split
    · exact ih
    · refine (onLeading_failsAs fails _ frame).bind fun v => ?_
      split
      · exact ih
      · exact .pure _

theorem advance_failsAs (fails : run.FailsAsRun missed) (frame : List Value)
    (clauses : List (LoopClause × Option Slot)) :
    Exec.FailsAs (OfRun missed) (advance run.call frame clauses) := by
  induction clauses generalizing frame with
  | nil => exact .pure _
  | cons entry rest ih =>
    obtain ⟨c, slot⟩ := entry
    unfold advance
    split
    · exact ih frame
    · refine (onLeading_failsAs fails _ frame).bind fun v => ?_
      cases slot with
      | none => exact ih frame
      | some s =>
        refine Exec.FailsAs.bind ?_ ih
        unfold store
        split
        · exact .pure _
        · exact .stuck

theorem finish_failsAs (fails : run.FailsAsRun missed) (frame : List Value) (chosen : Option Nat)
    (index : Nat) (result : Value) (clauses : List LoopClause) :
    Exec.FailsAs (OfRun missed) (finish run.call frame chosen index result clauses) := by
  induction clauses generalizing index result with
  | nil => exact .pure _
  | cons c rest ih =>
    unfold finish
    split
    · exact ih _ _
    · exact (onLeading_failsAs fails _ frame).bind fun v => ih _ _

theorem rounds_failsAs (fails : run.FailsAsRun missed) (plan : LoopPlan) (limit : Nat)
    (frame : List Value) : Exec.FailsAs (OfRun missed) (rounds run.call plan limit frame) := by
  induction limit generalizing frame with
  | zero => exact .exhausted
  | succ n ih =>
    unfold rounds
    refine (goesOn_failsAs fails frame plan.clauses).bind fun another => ?_
    split
    · exact (advance_failsAs fails frame _).bind ih
    · exact finish_failsAs fails frame plan.result 0 .void plan.clauses

theorem run_failsAs (fails : run.FailsAsRun missed) (plan : LoopPlan) (limit : Nat)
    (args : List Value) : Exec.FailsAs (OfRun missed) (plan.run run.call limit args) :=
  (start_failsAs fails plan.carried args _).bind fun _ => rounds_failsAs fails plan limit _

end LoopPlan

/-! Steps and programs. -/

namespace Step

theorem gather_failsAs (frame : List Value) (slots : List Slot) :
    Exec.FailsAs (OfRun missed) (gather frame slots) := by
  induction slots with
  | nil => exact .pure _
  | cons slot rest ih =>
    exact (Exec.FailsAs.ofOption _).bind fun v => ih.bind fun _ => .pure _

theorem checkResult_failsAs (kind : Kind) (v : Value) :
    Exec.FailsAs (OfRun missed) (checkResult kind v) := by
  unfold checkResult
  split
  · exact .pure _
  · split
    · exact .pure _
    · exact .refuse (castFailure_ofRun v kind)

theorem spreadItem_failsAs (index length : Nat) (v : Value) :
    Exec.FailsAs (OfRun missed) (spreadItem index length v) := by
  unfold spreadItem
  split
  · split
    · exact .ofOption _
    · exact .refuse (.invocation rfl)
  · exact .refuse (castFailure_ofRun _ _)

theorem runBranch_failsAs (fails : run.FailsAsRun missed) (test target fallback : Handle)
    (args : List Value) :
    Exec.FailsAs (OfRun missed) (runBranch run test target fallback args) := by
  refine Exec.FailsAs.bind (.ofOption _) fun _ => ?_
  refine Exec.FailsAs.bind (fails _ _) fun outcome => ?_
  split
  · exact fails _ _
  · exact fails _ _

theorem runCatching_failsAs (fails : run.FailsAsRun missed) (target : Handle) (exception : RefType)
    (handler : Handle) (args : List Value) :
    Exec.FailsAs (OfRun missed) (runCatching run target exception handler args) := by
  refine Exec.FailsAs.attempt (fails _ _) (fun v => .pure v) fun failure failed => ?_
  dsimp only
  split
  · next eq => cases eq
  · split
    · split
      · exact .stuck
      · exact (Exec.FailsAs.ofOption _).bind fun _ => fails _ _
    · exact .refuse (.invocation rfl)
  · next eq =>
    cases eq
    exact .refuse failed

/-- What a cleanup raises is passed on. -/
theorem runCleanup_failsAs (fails : run.FailsAsRun missed) (ret : Kind) (cleanup : Handle)
    (args : List Value) (failure : Option Throwable) (result : Value) :
    Exec.FailsAs (OfRun missed) (runCleanup run ret cleanup args failure result) := by
  unfold runCleanup
  dsimp only
  split
  · exact .stuck
  refine Exec.FailsAs.bind (.ofOption _) fun rest => ?_
  refine Exec.FailsAs.attempt (fails _ _) (fun v => .pure v) fun raised failed => ?_
  dsimp only
  split
  · split
    · exact (Exec.FailsAs.returns fun _ => ⟨_, rfl⟩).bind fun _ => .refuse failed
    · exact .refuse failed
  · exact .refuse failed

theorem runFinishing_failsAs (fails : run.FailsAsRun missed) (target cleanup : Handle)
    (args : List Value) : Exec.FailsAs (OfRun missed) (runFinishing run target cleanup args) := by
  refine Exec.FailsAs.attempt (fails _ _)
    (fun v => runCleanup_failsAs fails _ _ _ _ _) fun failure failed => ?_
  dsimp only
  split
  · exact .refuse failed
  · refine (asThrowable_failsAs _).bind fun t => ?_
    exact (runCleanup_failsAs fails _ _ _ _ _).bind fun _ => .refuse failed

theorem perform_failsAs (fails : run.FailsAsRun missed) (limit : Nat) (kind : Kind) (step : Step)
    (frame : List Value) : Exec.FailsAs (OfRun missed) (perform run limit kind step frame) := by
  unfold perform
  cases step with
  | const v => exact .pure v
  | convert slot source target =>
    exact (Exec.FailsAs.ofOption _).bind fun v => .ofExcept fun f failed =>
      .invocation (Value.CastFails.ofRun (v.convert_eq_ok_or_castFails source target) failed)
  | leaf action args =>
    exact (gather_failsAs frame args).bind fun vs =>
      Exec.FailsAs.bind (fails _ _) fun v => checkResult_failsAs kind v
  | call target args => exact (gather_failsAs frame args).bind fun vs => fails _ _
  | branch test target fallback args =>
    exact (gather_failsAs frame args).bind fun vs => runBranch_failsAs fails _ _ _ vs
  | catching target exception handler args =>
    exact (gather_failsAs frame args).bind fun vs => runCatching_failsAs fails _ _ _ vs
  | finishing target cleanup args =>
    exact (gather_failsAs frame args).bind fun vs => runFinishing_failsAs fails _ _ vs
  | loop plan args =>
    exact (gather_failsAs frame args).bind fun vs => plan.run_failsAs fails limit vs
  | collect element args => exact (gather_failsAs frame args).bind fun vs => .pure _
  | spread slot index length =>
    exact (Exec.FailsAs.ofOption _).bind fun v => spreadItem_failsAs index length v
  | dynamic site args =>
    exact (CallSite.target_failsAs site).bind fun target =>
      (gather_failsAs frame args).bind fun vs => fails _ _

end Step

namespace Program

theorem fill_failsAs (fails : run.FailsAsRun missed) (limit : Nat) (frame : List Value)
    (bindings : List Binding) : Exec.FailsAs (OfRun missed) (fill run limit frame bindings) := by
  induction bindings generalizing frame with
  | nil => exact .pure frame
  | cons b rest ih =>
    exact (Step.perform_failsAs fails limit b.kind b.step frame).bind fun v => ih _

theorem perform_failsAs (fails : run.FailsAsRun missed) (limit : Nat) (p : Program)
    (args : List Value) : Exec.FailsAs (OfRun missed) (p.perform run limit args) := by
  refine (fill_failsAs fails limit args p.bindings).bind fun frame => ?_
  split
  · exact .ofOption _
  · exact .pure _

end Program

/-! Actions. -/

theorem receiver_failsAs (owner : ClassDef) (args : List Value) :
    Exec.FailsAs (OfRun missed) (receiver owner args) := by
  unfold receiver
  split
  · exact .pure _
  · exact throwNew_failsAs _ _
  · exact throwNew_failsAs _ _
  · exact .refuse (castFailure_ofRun _ _)

/-- A handle is adapted or found not to convert. -/
theorem Handle.asType_fails {h : Handle} {caller : Signature} {t t' : HandleTable} {f : Failure}
    (failed : h.asType caller t = (.error (.failed f), t')) :
    f = .signatureMismatch caller h.signature := by
  cases answers_of_asType failed with
  | refused => rfl

/-- Values for leading parameters are fitted to them, or a cast fails. -/
theorem Blueprint.insertArguments_fails {h : Handle} {values : List Value} {f : Failure}
    (wf : h.signature.WellFormed) (enough : values.length ≤ h.arity)
    (failed : insertArguments h 0 values = .error (.failed f)) : f.isInvocation = true := by
  have positions : requirePositions h.signature 0 values.length = .ok () := by
    unfold requirePositions
    rw [if_neg]
    simpa [Signature.arity, Handle.arity] using enough
  have kinds : slice? h.signature.params 0 (0 + values.length) =
      some (h.signature.params.take values.length) := by
    unfold slice?
    rw [if_pos ⟨Nat.zero_le _, by simpa [Handle.arity] using enough⟩, Nat.zero_add]
    rfl
  have fitted : Ends (fun failure => failure.isInvocation = true) _
      ((values.zip (h.signature.params.take values.length)).mapM
        fun item => item.1.coerce item.2) :=
    mapM_ends fun item mem => Ends.intro
      (fun e refused => Value.coerce_fails
        (wf.no_void item.2 (List.mem_of_mem_take (List.of_mem_zip mem).2)) refused)
      fun _ _ => trivial
  unfold insertArguments at failed
  simp only [positions, kinds] at failed
  change Checked.ofExcept ((values.zip (h.signature.params.take values.length)).mapM
    fun item => item.1.coerce item.2) >>= _ = _ at failed
  cases coerced : (values.zip (h.signature.params.take values.length)).mapM
      (fun item => item.1.coerce item.2) with
  | error failure =>
    rw [coerced] at failed
    cases failed
    exact fitted.of_eq_error coerced
  | ok bound =>
    have count : bound.length ≤ h.signature.params.length := by
      have lengths := (fitted.of_eq_ok coerced).length_eq
      rw [List.length_zip, List.length_take] at lengths
      omega
    have rest : h.signature.dropParams 0 (0 + bound.length) =
        .ok ⟨h.signature.ret, h.signature.params.drop bound.length⟩ := by
      rw [Nat.zero_add]
      exact wf.dropParams (Nat.zero_le _) count
    rw [coerced] at failed
    change Checked.ofExcept (h.signature.dropParams 0 (0 + bound.length)) >>= _ = _ at failed
    rw [rest] at failed
    cases failed

/-- A function of the library fails as runs do. -/
theorem Intrinsic.perform_failsAs {σ : World} {f : Intrinsic} {args : List Value}
    (within : (Action.intrinsic f).Scoped σ.scope args.length) :
    Exec.FailsAs (OfRun missed) (f.perform args) := by
  unfold perform
  cases f with
  | throwArgument =>
    dsimp only
    split
    · exact .refuse (.invocation rfl)
    · exact throwNew_failsAs _ _
    · exact throwNew_failsAs _ _
    · exact .refuse (castFailure_ofRun _ _)
  | arrayItem =>
    dsimp only
    split
    · split
      · exact .pure _
      · exact throwNew_failsAs _ _
    · exact throwNew_failsAs _ _
    · exact .refuse (castFailure_ofRun _ _)
    · exact .stuck
  | arrayLength =>
    dsimp only
    split
    · exact .pure _
    · exact throwNew_failsAs _ _
    · exact .refuse (castFailure_ofRun _ _)
    · exact .stuck
  | intLess =>
    dsimp only
    split
    · exact .pure _
    · exact .pure _
    · exact .stuck
  | intIncrement =>
    dsimp only
    split
    · exact .pure _
    · exact .stuck
  | lambda name implementation instantiated =>
    obtain ⟨known, -, enough⟩ := within.2 _ _ _ rfl
    refine Exec.FailsAs.bind (.ofBuild fun t f failed => ?_) fun bound => ?_
    · have refused : Blueprint.insertArguments implementation 0 args = .error (.failed f) := by
        unfold Build.allocate at failed
        split at failed
        · cases failed
        · next eq =>
          cases failed
          exact eq
      have wf := ((σ.scope_complete.handle_iff implementation).1 known).blueprint.wellFormed
      exact .invocation (Blueprint.insertArguments_fails wf enough refused)
    · refine Exec.FailsAs.bind (.ofBuild fun t f failed => ?_) fun _ => .pure _
      rw [Handle.asType_fails (Prod.ext failed rfl)]
      exact .invocation rfl

namespace Action

variable {native : HostFunction → List Value → Exec Value} {action : Action} {args : List Value}
  {f : Failure} {s : State}

/-- A getter fails where the receiver lacks the field, and so does a setter. -/
theorem perform_getField_fails {owner : ClassDef} {name : String} {o : ObjectRef}
    {rest : List Value}
    (failed : ((getField owner name).perform native (.object o :: rest) s).1 =
      .error (.failed f)) : s.LacksField o name ∧ f = noMember o name := by
  cases found : o.cls.fieldIndex? name with
  | none =>
    rw [perform_getField_missing native found] at failed
    cases failed
    exact ⟨fun i index => absurd (found.symm.trans index) nofun, rfl⟩
  | some i =>
    rw [perform_getField_eq native found] at failed
    cases holds : s.field? o i with
    | some v =>
      rw [holds] at failed
      cases failed
    | none =>
      rw [holds] at failed
      cases failed
      refine ⟨fun j index => ?_, rfl⟩
      cases found.symm.trans index
      exact holds

theorem perform_setField_fails {owner : ClassDef} {name : String} {o : ObjectRef}
    {rest : List Value} {v : Value}
    (failed : ((setField owner name).perform native (.object o :: rest ++ [v]) s).1 =
      .error (.failed f)) : s.LacksField o name ∧ f = noMember o name := by
  rw [perform_setField_eq] at failed
  cases found : o.cls.fieldIndex? name with
  | none =>
    rw [found] at failed
    cases failed
    exact ⟨fun i index => absurd (found.symm.trans index) nofun, rfl⟩
  | some i =>
    rw [found] at failed
    by_cases inside : i < (s.fields o).length
    · simp only [if_pos inside] at failed
      cases failed
    · simp only [if_neg inside] at failed
      cases failed
      refine ⟨fun j index => ?_, rfl⟩
      cases found.symm.trans index
      exact List.getElem?_eq_none (Nat.not_lt.1 inside)

/-- What starts with the receiver fails as runs do, or it fails on an object. -/
theorem fails_of_receiver {owner : ClassDef} {next : ObjectRef → Exec Value}
    (failed : ((receiver owner args >>= next) s).1 = .error (.failed f)) :
    OfRun missed f ∨ ∃ o rest, args = .object o :: rest ∧ (next o s).1 = .error (.failed f) := by
  rcases receiver_cases owner args s with ⟨o, rest, given, received⟩ | ⟨e, t, refused, -⟩
  · rw [bind_of_ok received] at failed
    exact .inr ⟨o, rest, given, failed⟩
  · rw [bind_of_error refused] at failed
    cases failed
    exact .inl (receiver_failsAs owner args s f (congrArg Prod.fst refused))

/-- A scoped action that does not miss its member fails as runs do, when the functions of the host
do. -/
theorem perform_fails {σ : World} (host : ∀ f args, Exec.FailsAs (OfRun missed) (native f args))
    (within : action.Scoped σ.scope args.length)
    (finds : ¬ Code.Misses missed (.action action) args s)
    (failed : (action.perform native args s).1 = .error (.failed f)) : OfRun missed f := by
  cases action with
  | host function => exact host function args s f failed
  | intrinsic function => exact Intrinsic.perform_failsAs within s f failed
  | virtual owner name =>
    rcases fails_of_receiver failed with own | ⟨o, rest, rfl, failed⟩
    · exact own
    cases found : o.cls.findMethod? name with
    | some method =>
      rw [found] at failed
      exact host method.function _ s f failed
    | none =>
      rw [found] at failed
      cases failed
      rintro rfl
      exact absurd (.virtual rest found) finds
  | getField owner name =>
    rcases fails_of_receiver failed with own | ⟨o, rest, rfl, -⟩
    · exact own
    obtain ⟨lacks, rfl⟩ := perform_getField_fails failed
    rintro rfl
    exact absurd (.getField rest lacks) finds
  | setField owner name =>
    rcases fails_of_receiver failed with own | ⟨o, rest, given, -⟩
    · exact own
    obtain ⟨v, rfl⟩ : ∃ v, args = .object o :: rest ++ [v] := by
      have some : args ≠ [] := by
        rintro rfl
        cases given
      exact ⟨args.getLast some, by rw [← given, List.dropLast_append_getLast]⟩
    obtain ⟨lacks, rfl⟩ := perform_setField_fails failed
    rintro rfl
    exact absurd (.setField rest v lacks) finds
  | construct c =>
    have fails : Exec.FailsAs (OfRun missed) ((construct c).perform native args) := by
      unfold perform
      dsimp only
      split
      · exact .refuse (.invocation rfl)
      · exact Exec.FailsAs.bind (.returns fun _ => ⟨_, rfl⟩) fun o => .pure _
    exact fails s f failed

/-- An action that misses its member fails so, and it does nothing. -/
theorem perform_of_misses (native : HostFunction → List Value → Exec Value)
    (misses : Code.Misses f (.action action) args s) :
    action.perform native args s = (.error (.failed f), s) := by
  cases misses with
  | @virtual owner name o s rest missing =>
    unfold perform
    simp only [receiver, pure_bind, missing]
    rfl
  | @getField owner name o s rest lacks =>
    cases found : o.cls.fieldIndex? name with
    | none => exact perform_getField_missing native found rest
    | some i => rw [perform_getField_eq native found, lacks i found]
  | @setField owner name o s rest v lacks =>
    rw [perform_setField_eq]
    cases found : o.cls.fieldIndex? name with
    | none => rfl
    | some i => exact if_neg (Nat.not_lt.2 (List.getElem?_eq_none_iff.1 (lacks i found)))

end Action

/-! The machine. -/

/-- Whatever scoped code the machine runs fails as runs do, when the functions of the host throw or
give up, and calls of accessors that miss are cut off. -/
theorem runWith_scoped_failsAs {host : Host} (plain : host.FailsPlainly) (n : Nat) :
    (runWith (fun run => (run.cutWhere (Code.Misses missed)).scoped) host n).FailsAsRun missed := by
  have cut (n : Nat) := runWith_haltsOr Halt.isFinal_stuck
    (fun _ _ same => Runner.scoped_haltsOr (Runner.cutWhere_congr (M := Code.Misses missed) same))
    host n
  have same (n : Nat) : Runner.HaltsOr .exhausted (runWith (.cutWhere (Code.Misses missed)) host n)
      (runCode host n) :=
    runWith_haltsOr Halt.isFinal_exhausted (fun _ _ => Runner.cutWhere_haltsOr) host n
  induction n with
  | zero =>
    intro code args
    show Exec.FailsAs (OfRun missed) (throw .exhausted)
    exact .exhausted
  | succ n ih =>
    intro code args s f failed
    unfold runWith Runner.scoped at failed
    split at failed
    · next within =>
      unfold Runner.cutWhere at failed
      split at failed
      · cases failed
      · next finds =>
        cases code with
        | program _ p => exact p.perform_failsAs ih n args s f failed
        | action a =>
          obtain ⟨σ, within⟩ := within
          refine Action.perform_fails (fun g args s failure failed => ?_) within finds failed
          -- The host is known by what it does without the watches.
          rcases callHost_haltsOr Halt.isFinal_stuck (cut n) host g args s with halts | alike
          · cases halts.symm.trans failed
          rcases callHost_haltsOr Halt.isFinal_exhausted (same n) host g args s with halts | alike'
          · cases halts.symm.trans ((congrArg Prod.fst alike).symm.trans failed)
          have failed := (congrArg Prod.fst (alike.trans alike')).symm.trans failed
          exact .invocation (Failure.isInvocation_of_not_isStatic (plain n g args s failure failed))
    · cases failed

/-! The signature of the arguments. -/

variable {args : List Value}

/-- Arguments have no signature if there are too many of them, and else if one of them is `void`. -/
theorem Signature.ofValues_eq_error_iff {ret : Kind} {f : Failure} :
    Signature.ofValues ret args = .error f ↔
      (maxArity < args.length ∧ f = .tooManyParameters args.length maxArity) ∨
      (args.length ≤ maxArity ∧ ∃ index, First (· = .void) args index .void ∧
        f = .voidParameter index) := by
  have void : ∀ v : Value, v.kind.isVoid = true ↔ v = .void := fun v =>
    ⟨fun isVoid => by_contra fun nonVoid =>
      Value.kind_ne_void nonVoid (Kind.isVoid_iff.1 isVoid), fun eq => eq ▸ rfl⟩
  have position : ∀ index, (args.map Value.kind).findIdx? Kind.isVoid = some index ↔
      First (· = .void) args index .void := by
    intro index
    rw [List.findIdx?_map, findIdx?_eq_some_iff_first]
    simp only [First, Function.comp_apply, void]
    exact ⟨fun ⟨_, here, eq, before⟩ => ⟨eq ▸ here, trivial, before⟩,
      fun ⟨here, _, before⟩ => ⟨.void, here, rfl, before⟩⟩
  unfold ofValues make
  rw [List.length_map]
  split
  · next many =>
    have notFew : ¬ args.length ≤ maxArity := Nat.not_le.2 many
    simp [many, notFew, eq_comm]
  · next few =>
    rw [← Nat.not_lt]
    split
    · next index found =>
      simp only [few, false_and, not_false_eq_true, true_and, false_or, Except.error.injEq]
      constructor
      · rintro rfl
        exact ⟨index, (position index).1 found, rfl⟩
      · rintro ⟨other, first, rfl⟩
        cases found.symm.trans ((position other).2 first)
        rfl
    · next none =>
      simp only [few, false_and, not_false_eq_true, true_and, false_or, reduceCtorEq, false_iff]
      rintro ⟨index, first, -⟩
      cases none.symm.trans ((position index).2 first)

/-- Parameters that are followed by items of one kind make a signature, unless the kind of the items
is `void`. -/
theorem Signature.make_items {ret element : Kind} {leading : List Kind} {count : Nat}
    (given : ∀ k ∈ leading, k ≠ .void) (limit : leading.length + count ≤ maxArity) :
    make ret (leading ++ List.replicate count element) =
      if 0 < count ∧ element.isVoid = true then .error (.voidParameter leading.length)
      else .ok ⟨ret, leading ++ List.replicate count element⟩ := by
  have lead : leading.findIdx? Kind.isVoid = none :=
    List.findIdx?_eq_none_iff.2 fun k mem =>
      eq_false_of_ne_true fun isVoid => given k mem (Kind.isVoid_iff.1 isVoid)
  unfold make
  rw [if_neg (by simpa using limit), List.findIdx?_append, lead, List.findIdx?_replicate]
  by_cases void : 0 < count ∧ element.isVoid = true
  · rw [if_pos void, if_pos void]
    simp
  · rw [if_neg void, if_neg void]
    rfl

/-! Invocations from outside. -/

namespace Handle

/-- How exact calls fail in place of what is wrong: the first argument that does not belong to its
parameter is to be reported with the signature of all arguments, and some argument is `void`. -/
inductive LeaksExact (h : Handle) (args : List Value) : Failure → Prop
  | void {i index : Nat} {v : Value} {p : Prim} : args.length = h.arity →
      First (fun item => item.1.conforms item.2 = false) (args.zip h.signature.params) i
        (v, .prim p) →
      First (· = .void) args index .void → LeaksExact h args (.voidParameter index)

/-- How loose calls fail in place of what is wrong. -/
inductive LeaksLoose (h : Handle) (args : List Value) : Failure → Prop
  | many : h.variableArity = true → Signature.maxArity < args.length →
      LeaksLoose h args (.tooManyParameters args.length Signature.maxArity)
  | void {index : Nat} : h.variableArity = true ∨ args.length = h.arity →
      args.length ≤ Signature.maxArity → First (· = .void) args index .void →
      LeaksLoose h args (.voidParameter index)
  /-- Items are collected for an array of items of kind `void`. -/
  | items {leading : List Kind} {front trailing : List Value} : h.variableArity = true →
      args.length ≤ Signature.maxArity → (∀ v ∈ args, v ≠ .void) →
      h.signature.params = leading ++ [.arrayOf .void] → args = front ++ trailing →
      front.length = leading.length → trailing ≠ [] →
      (∀ v, trailing = [v] → v.kind.isConvertibleTo (.arrayOf .void) = false) →
      LeaksLoose h args (.voidParameter leading.length)

variable {h : Handle} {f : Failure} {s t : State}

theorem LeaksExact.not_isInvocation (leaks : h.LeaksExact args f) : f.isInvocation = false := by
  cases leaks
  rfl

theorem LeaksLoose.not_isInvocation (leaks : h.LeaksLoose args f) : f.isInvocation = false := by
  cases leaks <;> rfl

theorem checkArguments_fails (failed : h.checkArguments args = .error f)
    (wf : h.signature.WellFormed) : f.isInvocation = true ∨ h.LeaksExact args f := by
  unfold checkArguments at failed
  split at failed
  · cases failed
    exact .inl rfl
  · next count =>
    have lengths : args.length = h.arity := not_not.1 count
    split at failed
    · cases failed
    · next v p found =>
      obtain ⟨i, first⟩ := find?_eq_some_iff_first.1 found
      cases caller : Signature.ofValues h.signature.ret args with
      | ok actual =>
        rw [caller] at failed
        cases failed
        exact .inl rfl
      | error refusal =>
        rw [caller] at failed
        cases failed
        rcases Signature.ofValues_eq_error_iff.1 caller with ⟨many, -⟩ | ⟨-, index, void, rfl⟩
        · have limit : h.arity ≤ Signature.maxArity := wf.arity_le
          omega
        · exact .inr (.void lengths ((First.congr (by simp)).1 first) void)
    · cases failed
      exact .inl rfl

theorem checkArguments_of_leaksExact (wf : h.signature.WellFormed)
    (leaks : h.LeaksExact args f) : h.checkArguments args = .error f := by
  obtain ⟨lengths, first, void⟩ := leaks
  have found : (args.zip h.signature.params).find? (fun item => !item.1.conforms item.2) = _ :=
    find?_eq_some_iff_first.2 ⟨_, (First.congr (by simp)).2 first⟩
  have limit : args.length ≤ Signature.maxArity := lengths ▸ wf.arity_le
  have caller : Signature.ofValues h.signature.ret args = _ :=
    Signature.ofValues_eq_error_iff.2 (.inr ⟨limit, _, void, rfl⟩)
  unfold checkArguments
  rw [if_neg (not_not.2 lengths)]
  split
  · next conform => cases found.symm.trans conform
  · next _ _ here =>
    cases found.symm.trans here
    rw [caller]
    rfl
  · next reference here =>
    cases found.symm.trans here
    exact absurd rfl (reference _)

/-- An exact call fails in no third way. -/
theorem invokeExact_fails (fails : run.FailsAsRun missed) (wf : h.signature.WellFormed)
    (failed : h.invokeExact run args s = (.error (.failed f), t)) :
    OfRun missed f ∨ h.LeaksExact args f := by
  unfold invokeExact at failed
  cases checked : h.checkArguments args with
  | ok u =>
    rw [checked] at failed
    exact .inl (fails _ _ s f (congrArg Prod.fst failed))
  | error refusal =>
    rw [checked] at failed
    cases failed
    exact (checkArguments_fails checked wf).imp_left .invocation

theorem invokeExact_of_leaksExact (run : Runner) (wf : h.signature.WellFormed)
    (leaks : h.LeaksExact args f) (s : State) :
    h.invokeExact run args s = (.error (.failed f), s) := by
  unfold invokeExact
  rw [checkArguments_of_leaksExact wf leaks]
  rfl

/-- What a handle is adapted to has the signature that was asked for. -/
theorem asType_signature {a : Handle} {caller : Signature} {t t' : HandleTable}
    (adapted : h.asType caller t = (.ok a, t')) : (a.signature == caller) = true := by
  cases answers_of_asType adapted with
  | own same => exact same
  | kept _ _ equal => exact equal
  | made _ _ new =>
    rw [new]
    exact BEq.rfl

/-- A call of what a handle is adapted to for its arguments checks them in vain. -/
theorem invokeExact_adapted_fails (fails : run.FailsAsRun missed) {g : Handle} {x : Build Handle}
    {table : HandleTable} (asked : x s.handles = g.asType (h.callerOf args) table)
    (nonVoid : ∀ v ∈ args, v ≠ .void)
    (failed : (Exec.ofBuild x >>= fun a => a.invokeExact run args) s = (.error (.failed f), t)) :
    OfRun missed f := by
  cases result : g.asType (h.callerOf args) table with
  | mk outcome table' =>
    cases outcome with
    | error e =>
      rw [bind_of_error (ofBuild_eq (asked.trans result))] at failed
      cases failed
      rw [asType_fails result]
      exact .invocation rfl
    | ok a =>
      have conform := conform_of_beq nonVoid (asType_signature result)
      rw [bind_of_ok (ofBuild_eq (asked.trans result)),
        a.invokeExact_of_conform run conform] at failed
      exact fails _ _ _ f (congrArg Prod.fst failed)

/-- A loose call of a handle that collects fails in no third way. -/
theorem invoke_fails_of_variableArity (fails : run.FailsAsRun missed)
    (wf : h.signature.WellFormed) (collects : h.variableArity = true) {element : Kind}
    (last : h.signature.params.getLast? = some (.arrayOf element))
    (nonVoid : ∀ v ∈ args, v ≠ .void) (limit : args.length ≤ Signature.maxArity)
    (failed : h.invoke run args s = (.error (.failed f), t)) :
    OfRun missed f ∨ h.LeaksLoose args f := by
  obtain ⟨leading, params⟩ := List.getLast?_eq_some_iff.1 last
  by_cases few : args.length < leading.length
  · rw [invoke_of_few run s collects params few nonVoid limit] at failed
    cases failed
    exact .inl (.invocation rfl)
  obtain ⟨front, trailing, rfl, lengths⟩ : ∃ front trailing, args = front ++ trailing ∧
      front.length = leading.length :=
    ⟨args.take leading.length, args.drop leading.length, (List.take_append_drop _ _).symm, by
      rw [List.length_take]
      omega⟩
  rw [invoke_eq (.inl collects) nonVoid limit] at failed
  by_cases differ : ∀ v, trailing = [v] → v.kind.isConvertibleTo (.arrayOf element) = false
  · have asked := adaptedTo_of_collected collects params lengths differ limit s.handles
    have given : ∀ k ∈ leading, k ≠ .void := fun k mem =>
      wf.no_void k (by rw [params]; exact List.mem_append_left _ mem)
    rw [Signature.make_items given (by rwa [List.length_append, lengths] at limit)] at asked
    split at asked
    · next own made =>
      exact .inl (invokeExact_adapted_fails fails asked nonVoid failed)
    · next refusal made =>
      split at made
      · next void =>
        cases made
        rw [invokeAs, bind_of_error (ofBuild_eq asked)] at failed
        cases failed
        rw [Kind.isVoid_iff.1 void.2] at params differ
        exact .inr (.items collects limit nonVoid params rfl lengths
          (List.ne_nil_of_length_pos void.1) differ)
      · cases made
  · obtain ⟨v, rfl, convertible⟩ : ∃ v, trailing = [v] ∧
        v.kind.isConvertibleTo (.arrayOf element) = true := by simpa using differ
    have asked : h.adaptedTo (h.callerOf (front ++ [v])) s.handles =
        h.asType (h.callerOf (front ++ [v])) s.handles := by
      unfold adaptedTo
      rw [collectedCount_of_convertible collects params lengths convertible]
      rfl
    exact .inl (invokeExact_adapted_fails fails asked nonVoid failed)

/-- A loose call of an accepted number of arguments goes through their signature, if there is
one. -/
theorem invoke_of_accepted (run : Runner)
    (accepted : h.variableArity = true ∨ args.length = h.arity) :
    h.invoke run args = (do
      let caller ← Exec.ofExcept (Signature.ofValues h.signature.ret args)
      h.invokeAs run caller args) := by
  have passed : (!h.variableArity && args.length != h.arity) = false := by
    simpa [Classical.or_iff_not_imp_left] using accepted
  unfold invoke
  simp only [passed]
  rfl

/-- A loose call fails in no third way. -/
theorem invoke_fails (fails : run.FailsAsRun missed) (wf : h.signature.WellFormed)
    (trailing : h.variableArity = true →
      ∃ element, h.signature.params.getLast? = some (.arrayOf element))
    (failed : h.invoke run args s = (.error (.failed f), t)) :
    OfRun missed f ∨ h.LeaksLoose args f := by
  by_cases accepted : h.variableArity = true ∨ args.length = h.arity
  · cases caller : Signature.ofValues h.signature.ret args with
    | error refusal =>
      rw [invoke_of_accepted run accepted, caller] at failed
      cases failed
      rcases Signature.ofValues_eq_error_iff.1 caller with ⟨many, rfl⟩ | ⟨limit, _, void, rfl⟩
      · refine .inr (.many (accepted.resolve_right fun lengths => ?_) many)
        exact absurd (lengths ▸ wf.arity_le) (Nat.not_le.2 many)
      · exact .inr (.void accepted limit void)
    | ok own =>
      obtain ⟨rfl, valid⟩ := Signature.make_eq_ok_iff.1 caller
      have limit : args.length ≤ Signature.maxArity := by simpa using valid.arity_le
      have nonVoid : ∀ v ∈ args, v ≠ .void := by
        rintro v mem rfl
        exact valid.no_void _ (List.mem_map_of_mem mem) rfl
      cases collects : h.variableArity with
      | true =>
        obtain ⟨element, last⟩ := trailing collects
        exact invoke_fails_of_variableArity fails wf collects last nonVoid limit failed
      | false =>
        have asked : h.adaptedTo (h.callerOf args) s.handles =
            h.asType (h.callerOf args) s.handles := by
          simp only [adaptedTo, collectedCount, collects]
          rfl
        rw [invoke_eq accepted nonVoid limit] at failed
        exact .inl (invokeExact_adapted_fails fails asked nonVoid failed)
  · have refused : (!h.variableArity && args.length != h.arity) = true := by
      simpa [not_or] using accepted
    unfold invoke at failed
    simp only [refused] at failed
    cases failed
    exact .inl (.invocation rfl)

theorem invoke_of_leaksLoose (run : Runner) (wf : h.signature.WellFormed)
    (leaks : h.LeaksLoose args f) (s : State) :
    h.invoke run args s = (.error (.failed f), s) := by
  cases leaks with
  | many collects many =>
    rw [invoke_of_accepted run (.inl collects),
      Signature.ofValues_eq_error_iff.2 (.inl ⟨many, rfl⟩)]
    rfl
  | void accepted limit void =>
    rw [invoke_of_accepted run accepted,
      Signature.ofValues_eq_error_iff.2 (.inr ⟨limit, _, void, rfl⟩)]
    rfl
  | @items leading front trailing collects limit nonVoid params split lengths some differ =>
    subst split
    have asked := adaptedTo_of_collected collects params lengths differ limit s.handles
    have given : ∀ k ∈ leading, k ≠ .void := fun k mem =>
      wf.no_void k (by rw [params]; exact List.mem_append_left _ mem)
    rw [Signature.make_items given (by rwa [List.length_append, lengths] at limit),
      if_pos ⟨List.length_pos_of_ne_nil some, rfl⟩] at asked
    rw [invoke_eq (.inl collects) nonVoid limit, invokeAs]
    exact bind_of_error (ofBuild_eq asked)

end Handle

/-- How invocations fail, of all handles that users can make, in all states that they can get into.
What a run fails with is documented, unless on the way an accessor is called that does not find its
member in the receiver and fails so. What fails ahead of the run is documented, unless the signature
of the arguments is refused: then that refusal is reported, and nothing was done. -/
theorem Attained.invocation_failures {point : Nat → UInt64 → Signature → Prop}
    {values : List Value} {s : State} (attained : Attained point values s) {h : Handle}
    (known : Among values (.handle h)) {host : Host} (plain : host.FailsPlainly)
    (hostInScope : host.InScope (.held point values s)) {args : List Value}
    (argsInScope : ∀ v ∈ args, v.InScope (.held point values s)) (n : Nat) (f : Failure) :
    (∀ t, h.invokeExact (runCode host n) args s = (.error (.failed f), t) →
      f.isInvocation = true ∨ (Operation.invokeExact h args).CallsSome host n s (Code.Misses f) ∨
        h.LeaksExact args f) ∧
    (∀ t, h.invoke (runCode host n) args s = (.error (.failed f), t) →
      f.isInvocation = true ∨ (Operation.invoke h args).CallsSome host n s (Code.Misses f) ∨
        h.LeaksLoose args f) ∧
    (h.LeaksExact args f → f.isInvocation = false ∧
      h.invokeExact (runCode host n) args s = (.error (.failed f), s)) ∧
    (h.LeaksLoose args f → f.isInvocation = false ∧
      h.invoke (runCode host n) args s = (.error (.failed f), s)) ∧
    (∀ action, h.Performs action → Conform args h.signature.params →
      Code.Misses f (.action action) args s → 2 ≤ n → f.isInvocation = false ∧
        h.invokeExact (runCode host n) args s = (.error (.failed f), s)) := by
  obtain ⟨σ, -, -, -, offered⟩ := attained.inWorld
  have fits := (σ.scope_complete.handle_iff h).1 (offered.handle h known)
  have wf := fits.blueprint.wellFormed
  have fails : Runner.FailsAsRun f
      (runWith (fun run => (run.cutWhere (Code.Misses f)).scoped) host n) :=
    runWith_scoped_failsAs plain n
  obtain ⟨exact, loose⟩ := attained.invoke_scoped known hostInScope argsInScope n (Code.Misses f)
  refine ⟨fun t failed => ?exactly, fun t failed => ?loosely,
    fun leaks => ⟨leaks.not_isInvocation, Handle.invokeExact_of_leaksExact _ wf leaks s⟩,
    fun leaks => ⟨leaks.not_isInvocation, Handle.invoke_of_leaksLoose _ wf leaks s⟩, ?missing⟩
  case exactly =>
    rcases (Operation.invokeExact h args).callsSome_or_eq host n s (Code.Misses f) with
      calls | same
    · exact .inr (.inl calls)
    · have failed := exact.trans (same.trans failed)
      exact (Handle.invokeExact_fails fails wf failed).imp (fun own => own rfl) .inr
  case loosely =>
    rcases (Operation.invoke h args).callsSome_or_eq host n s (Code.Misses f) with calls | same
    · exact .inr (.inl calls)
    · have failed := loose.trans (same.trans failed)
      exact (Handle.invoke_fails fails wf fits.trailing failed).imp (fun own => own rfl) .inr
  case missing =>
    intro action performs conform misses deep
    obtain ⟨m, rfl⟩ := Nat.exists_eq_add_of_le' deep
    have failed := Action.perform_of_misses (callHost host (runCode host m)) misses
    refine ⟨?_, performs.invokeExact_of_error conform failed⟩
    cases misses <;> rfl

theorem Host.idle_failsPlainly : Host.idle.FailsPlainly :=
  fun _ _ _ => .returns fun _ => ⟨.void, rfl⟩

/-- A function that takes a number, called on nothing. -/
theorem Attained.invocation_failures_onVoid :
    ∃ (values : List Value) (s : State) (h : Handle), Attained (fun _ _ _ => True) values s ∧
      Among values (.handle h) ∧ Host.idle.FailsPlainly ∧ h.LeaksExact [.void] (.voidParameter 0) ∧
      h.invokeExact (runCode .idle 1) [.void] s = (.error (.failed (.voidParameter 0)), s) := by
  have start : Attained (fun _ _ _ => True) [] .empty := .refl
  have made := start.perform
    (.construct (.ofAction ⟨.prim .int, [.prim .int]⟩ (.host ⟨0, "f"⟩))) 1
    (Host.idle_inScope _) ⟨⟨by decide, by simp⟩, trivial⟩
  obtain ⟨-, -, leak, -⟩ := Attained.invocation_failures made (Among.last rfl)
    Host.idle_failsPlainly (Host.idle_inScope _)
    (List.forall_mem_singleton.2 (.plain (v := .void) rfl)) 1
    (.voidParameter 0)
  have leaks : Handle.LeaksExact ⟨0, ⟨.prim .int, [.prim .int]⟩,
      (Blueprint.ofAction ⟨.prim .int, [.prim .int]⟩ (.host ⟨0, "f"⟩)).program, false⟩ [.void]
      (.voidParameter 0) :=
    .void (v := .void) (p := .int) (i := 0) rfl ⟨rfl, rfl, fun _ => nofun⟩
      ⟨rfl, rfl, fun _ => nofun⟩
  exact ⟨_, _, _, made, Among.last rfl, Host.idle_failsPlainly, leaks, (leak leaks).2⟩

/-- A class with one field, and a class below it that does not repeat the field. -/
def ClassDef.point : ClassDef := ⟨"Point", none, false, [("x", .prim .int)], []⟩

def ClassDef.shiftedPoint : ClassDef := ⟨"ShiftedPoint", some (.cls .point), false, [], []⟩

/-- Invocations also end with failures that are documented for other occasions: where a number is
wanted and nothing is given, where more arguments are collected than a signature has room for, and
where the field of a class is read from an object of a subclass. -/
theorem Attained.invocation_failures_undocumented :
    ∃ (values : List Value) (s : State) (number all field : Handle) (o : ObjectRef),
      Attained (fun _ _ _ => True) values s ∧ Host.idle.FailsPlainly ∧
      (∀ v ∈ [Value.handle number, .handle all, .handle field, .object o], Among values v) ∧
      (number.invokeExact (runCode .idle 2) [.void] s).1 = .error (.failed (.voidParameter 0)) ∧
      (all.invoke (runCode .idle 2) (List.replicate 255 .null) s).1 =
        .error (.failed (.tooManyParameters 255 254)) ∧
      (field.invoke (runCode .idle 2) [.object o] s).1 =
        .error (.failed (.noSuchMember "ShiftedPoint" "x")) ∧
      (Failure.voidParameter 0).isInvocation = false ∧
      (Failure.tooManyParameters 255 254).isInvocation = false ∧
      (Failure.noSuchMember "ShiftedPoint" "x").isInvocation = false := by
  have valid : Signature.WellFormed ⟨.prim .int, [.arrayOf .object]⟩ :=
    ⟨by decide, by simp [Kind.arrayOf]⟩
  have start : Attained (fun _ _ _ => True) [] .empty := .refl
  have first := start.performed
    (.construct (.ofAction ⟨.prim .int, [.prim .int]⟩ (.host ⟨0, "f"⟩))) 1
    (Host.idle_inScope _) ⟨⟨by decide, by simp⟩, trivial⟩ rfl
  have second := first.performed
    (.construct (.ofAction ⟨.prim .int, [.arrayOf .object]⟩ (.host ⟨0, "f"⟩))) 1
    (Host.idle_inScope _) ⟨valid, trivial⟩ rfl
  have third := second.performed (.construct (.asVariableArity _ (.arrayOf .object))) 1
    (Host.idle_inScope _) (Among.last rfl) rfl
  have fourth := third.performed
    (.construct (.ofAction ⟨.prim .int, [.ofClass .point]⟩ (.getField .point "x"))) 1
    (Host.idle_inScope _) ⟨⟨by decide, by simp [Kind.ofClass]⟩, trivial⟩ rfl
  have fifth := fourth.performed (.newObject .shiftedPoint []) 1 (Host.idle_inScope _)
    (List.forall_mem_nil _) rfl
  have tooMany : ∀ (h : Handle) (args : List Value) (s : State), args.length = 255 →
      h.variableArity = true → h.signature.WellFormed →
      (h.invoke (runCode .idle 2) args s).1 = .error (.failed (.tooManyParameters 255 254)) := by
    intro h args s count collects wf
    have many : Signature.maxArity < args.length := count ▸ by decide
    rw [Handle.invoke_of_leaksLoose _ wf (.many collects many) s, count]
    rfl
  exact ⟨_, _, _, _, _, _, fifth, Host.idle_failsPlainly, List.forall_mem_cons.2
    ⟨(Among.last rfl).later.later.later.later, List.forall_mem_cons.2
      ⟨(Among.last rfl).later.later, List.forall_mem_cons.2 ⟨(Among.last rfl).later,
        List.forall_mem_singleton.2 (Among.last rfl)⟩⟩⟩, rfl,
    tooMany _ _ _ List.length_replicate rfl valid, rfl, rfl, rfl, rfl⟩

end TypedHandles
