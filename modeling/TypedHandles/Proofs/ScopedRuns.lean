import TypedHandles.Proofs.ScopedStates
import TypedHandles.Proofs.Hosting

/-!
Scoped code is never stuck. Every step finds the slots that it reads, and passes every handle as
many values as the handle takes; the frame of a program grows by one value with each step, and the
frame of a loop keeps its length.
-/
namespace TypedHandles

variable {S S' : Scope} {σ τ : World} {run : Runner}

/-- So many values in scope. -/
structure Frame (S : Scope) (width : Nat) (vs : List Value) : Prop where
  inScope : ∀ v ∈ vs, v.InScope S
  length_eq : vs.length = width

namespace Frame

variable {width : Nat} {vs ws : List Value}

theorem mono (grows : S.Grows S') (h : Frame S width vs) : Frame S' width vs :=
  ⟨fun v mem => (h.inScope v mem).mono grows, h.length_eq⟩

theorem append {others : Nat} (h : Frame S width vs) (h' : Frame S others ws) :
    Frame S (width + others) (vs ++ ws) where
  inScope := List.forall_mem_append.2 ⟨h.inScope, h'.inScope⟩
  length_eq := by rw [List.length_append, h.length_eq, h'.length_eq]

theorem nil : Frame S 0 [] := ⟨List.forall_mem_nil _, rfl⟩

theorem single {v : Value} (inScope : v.InScope S) : Frame S 1 [v] :=
  ⟨List.forall_mem_singleton.2 inScope, rfl⟩

theorem set (h : Frame S width vs) (slot : Slot) {v : Value} (inScope : v.InScope S) :
    Frame S width (vs.set slot v) where
  inScope w mem := by
    rcases List.mem_or_eq_of_mem_set mem with mem | rfl
    · exact h.inScope w mem
    · exact inScope
  length_eq := by rw [List.length_set, h.length_eq]

/-- A slot of the frame holds a value. -/
theorem getElem? (h : Frame S width vs) {slot : Slot} (inside : slot < width) :
    ∃ v, vs[slot]? = some v ∧ v.InScope S := by
  have found := List.getElem?_eq_getElem (l := vs) (by rwa [h.length_eq])
  exact ⟨_, found, h.inScope _ (List.mem_of_getElem? found)⟩

/-- As many leading values as there are can be taken. -/
theorem leading (h : Frame S width vs) {count : Nat} (few : count ≤ width) :
    ∃ ws, leading vs count = pure ws ∧ Frame S count ws := by
  have inside : 0 ≤ count ∧ count ≤ vs.length := ⟨Nat.zero_le _, by rwa [h.length_eq]⟩
  refine ⟨vs.take count, ?_, fun v mem => h.inScope v (List.mem_of_mem_take mem),
    List.length_take_of_le inside.2⟩
  unfold TypedHandles.leading slice?
  rw [if_pos inside]
  rfl

/-- The slots that a step reads can be read. -/
theorem gather (h : Frame S width vs) {slots : List Slot} (inside : ∀ slot ∈ slots, slot < width) :
    ∃ ws, Step.gather vs slots = pure ws ∧ Frame S slots.length ws := by
  induction slots with
  | nil => exact ⟨[], rfl, .nil⟩
  | cons slot rest ih =>
    rw [List.forall_mem_cons] at inside
    obtain ⟨v, here, inScope⟩ := h.getElem? inside.1
    obtain ⟨ws, others, fits⟩ := ih inside.2
    refine ⟨v :: ws, ?_, List.forall_mem_cons.2 ⟨inScope, fits.inScope⟩, ?_⟩
    · rw [Step.gather, here, others]
      rfl
    · rw [List.length_cons, List.length_cons, fits.length_eq]

/-- What is passed to a handle. -/
theorem passes (h : Frame S width vs) {slots : List Slot} {count : Nat}
    (passes : Passes width slots count) :
    ∃ ws, Step.gather vs slots = pure ws ∧ Frame S count ws := by
  obtain ⟨ws, gathered, fits⟩ := h.gather passes.inside
  exact ⟨ws, gathered, passes.length_eq ▸ fits⟩

end Frame

/-- Code that runs on so many arguments. -/
def Code.Scoped (S : Scope) (count : Nat) : Code → Prop
  | .program signature p => p.Scoped S signature ∧ signature.arity = count
  | .action a => a.Scoped S count

/-- A way to run code that is not stuck where the code is scoped, now and when more is in scope. -/
def Runner.Keeps (σ : World) (run : Runner) : Prop :=
  ∀ (τ : World) (code : Code) (args : List Value), σ.Grows τ → code.Scoped τ.scope args.length →
    (∀ v ∈ args, v.InScope τ.scope) → Exec.Keeps τ (run code args) fun ρ v => v.InScope ρ.scope

theorem Runner.Keeps.mono (grows : σ.Grows τ) (keeps : run.Keeps σ) : run.Keeps τ :=
  fun ρ code args grows' => keeps ρ code args (grows.trans grows')

/-- A handle in scope may be called on as many values as it takes. -/
theorem Runner.Keeps.call (keeps : run.Keeps σ) {h : Handle} {args : List Value}
    (known : σ.scope.handle h) (fits : Frame σ.scope h.arity args) :
    Exec.Keeps σ (run.call h args) fun τ v => v.InScope τ.scope :=
  keeps σ (.program h.signature h.program) args (.refl σ)
    ⟨((σ.scope_complete.handle_iff h).1 known).blueprint.program, fits.length_eq.symm⟩ fits.inScope

/-! Loops. -/

namespace LoopPlan

variable (call : Caller)

/-- However many variables the frame of a loop has, it has as many after a round. -/
theorem advance_length {frame frame' : List Value} {clauses : List (LoopClause × Option Slot)}
    {s t : State} (done : advance call frame clauses s = (.ok frame', t)) :
    frame'.length = frame.length := by
  induction clauses generalizing frame s with
  | nil =>
    cases done
    rfl
  | cons head rest ih =>
    obtain ⟨c, slot⟩ := head
    unfold advance at done
    cases found : c.step with
    | none =>
      rw [found] at done
      exact ih done
    | some step =>
      rw [found] at done
      obtain ⟨v, s', -, done⟩ := bind_eq_ok done
      cases slot with
      | none => exact ih done
      | some slot =>
        obtain ⟨stored, s'', store, done⟩ := bind_eq_ok done
        unfold LoopPlan.store at store
        split at store
        · cases store
          rw [ih done, List.length_set]
        · cases store

/-- A loop starts with one variable for each slot. -/
theorem start_length {carried : List Kind} {args vs : List Value}
    {clauses : List (LoopClause × Option Slot)} {s t : State}
    (done : start call carried args clauses s = (.ok vs, t)) :
    vs.length = clauses.countP (·.2.isSome) := by
  induction clauses generalizing vs s t with
  | nil =>
    cases done
    rfl
  | cons head rest ih =>
    obtain ⟨c, slot⟩ := head
    rw [start] at done
    obtain ⟨initial, s', -, done⟩ := bind_eq_ok done
    have others : ∀ {here : List Value} {s' : State},
        (start call carried args rest >>= fun vs => pure (here ++ vs)) s' = (.ok vs, t) →
          vs.length = rest.countP (·.2.isSome) + here.length := by
      intro here s' done
      obtain ⟨more, s'', started, done⟩ := bind_eq_ok done
      cases done
      rw [List.length_append, ih started, Nat.add_comm]
    rw [List.countP_cons]
    cases slot with
    | none => exact others done
    | some slot =>
      cases initial with
      | some v => exact others done
      | none =>
        obtain ⟨k, s'', -, done⟩ := bind_eq_ok done
        exact others done

theorem length_assignSlots (next : Nat) (clauses : List LoopClause) :
    (assignSlots next clauses).length = clauses.length := by
  induction clauses generalizing next with
  | nil => rfl
  | cons c rest ih =>
    unfold assignSlots
    split <;> simp [ih]

/-- The variables have slots of their own, the first ones of the frame. -/
theorem countP_assignSlots (next : Nat) (clauses : List LoopClause) :
    (assignSlots next clauses).countP (·.isSome) = (carriedKinds clauses).length := by
  induction clauses generalizing next with
  | nil => rfl
  | cons c rest ih =>
    rcases carriedKinds_cons c rest with ⟨-, kinds, slots⟩ | ⟨kinds, slots⟩ <;>
      simp [kinds, slots, ih]

theorem slot_inside {next slot : Nat} {clauses : List LoopClause}
    (mem : some slot ∈ assignSlots next clauses) : slot < next + (carriedKinds clauses).length := by
  induction clauses generalizing next with
  | nil => cases mem
  | cons c rest ih =>
    rcases carriedKinds_cons c rest with ⟨-, kinds, slots⟩ | ⟨kinds, slots⟩
    · rw [slots] at mem
      rw [kinds]
      exact ih (by simpa using mem)
    · rw [slots] at mem
      rw [kinds, List.length_cons]
      rcases List.mem_cons.1 mem with eq | mem
      · cases eq
        omega
      · have := ih mem
        omega

theorem countP_slots (clauses : List LoopClause) :
    (clauses.zip (assignSlots 0 clauses)).countP (·.2.isSome) = (carriedKinds clauses).length := by
  have slots := List.map_snd_zip (Nat.le_of_eq (length_assignSlots 0 clauses))
  rw [← countP_assignSlots 0 clauses]
  conv_rhs => rw [← slots]
  rw [List.countP_map]
  rfl

end LoopPlan

namespace LoopPlan

variable {carried count : Nat}

/-- A handle is called on leading values. -/
theorem onLeading_keeps (keeps : run.Keeps σ) {h : Handle} {width : Nat} {vs : List Value}
    (known : σ.scope.handle h) (frame : Frame σ.scope width vs) (few : h.arity ≤ width) :
    Exec.Keeps σ (onLeading run.call h vs) fun τ v => v.InScope τ.scope := by
  obtain ⟨ws, taken, fits⟩ := frame.leading few
  unfold onLeading
  rw [taken, pure_bind]
  exact keeps.call known fits

/-- The variables start from inits or from zeros. -/
theorem start_keeps (keeps : run.Keeps σ) {kinds : List Kind} {args : List Value}
    {clauses : List (LoopClause × Option Slot)}
    (within : ∀ c ∈ clauses, c.1.Scoped σ.scope carried count)
    (slots : ∀ c ∈ clauses, ∀ slot, c.2 = some slot → slot < kinds.length)
    (frame : Frame σ.scope count args) :
    Exec.Keeps σ (start run.call kinds args clauses)
      fun τ vs => ∀ v ∈ vs, v.InScope τ.scope := by
  induction clauses generalizing σ with
  | nil => exact .pure (List.forall_mem_nil _)
  | cons head rest ih =>
    obtain ⟨c, slot⟩ := head
    rw [List.forall_mem_cons] at within slots
    have initial : Exec.Keeps σ (c.init.mapM fun init => onLeading run.call init args)
        fun τ v => ∀ w, v = some w → w.InScope τ.scope := by
      cases found : c.init with
      | none => exact .pure nofun
      | some init =>
        refine (onLeading_keeps keeps (within.1.known init (mem_functions_of_init found)) frame
          (within.1.init_arity init found)).bind fun τ v _ inScope => .pure ?_
        rintro w ⟨⟩
        exact inScope
    rw [start]
    refine initial.bind fun τ v grows started => ?_
    have others : ∀ {here : List Value}, (∀ v ∈ here, v.InScope τ.scope) →
        Exec.Keeps τ (start run.call kinds args rest >>= fun vs => pure (here ++ vs))
          fun ρ vs => ∀ v ∈ vs, v.InScope ρ.scope := by
      intro here first
      refine (ih (keeps.mono grows) (fun c mem => (within.2 c mem).mono grows.scope) slots.2
        (frame.mono grows.scope)).bind fun ρ vs grows' inScope => .pure ?_
      exact List.forall_mem_append.2 ⟨fun v mem => (first v mem).mono grows'.scope, inScope⟩
    cases slot with
    | none => exact others (List.forall_mem_nil _)
    | some slot =>
      cases v with
      | some w => exact others (List.forall_mem_singleton.2 (started w rfl))
      | none =>
        dsimp only
        rw [List.getElem?_eq_getElem (slots.1 slot rfl)]
        exact others (List.forall_mem_singleton.2 (.plain (Value.isPlain_zero _)))

variable {width : Nat} {frame : List Value}

theorem goesOn_keeps (keeps : run.Keeps σ) {clauses : List LoopClause}
    (within : ∀ c ∈ clauses, c.Scoped σ.scope carried count)
    (values : Frame σ.scope (carried + count) frame) :
    Exec.Keeps σ (goesOn run.call frame clauses) fun _ _ => True := by
  induction clauses generalizing σ with
  | nil => exact .pure trivial
  | cons c rest ih =>
    rw [List.forall_mem_cons] at within
    unfold goesOn
    split
    · exact ih keeps within.2 values
    · next pred found =>
      have mem := mem_bodyFunctions_of_pred found
      refine (onLeading_keeps keeps (within.1.known pred (mem_functions_of_body mem)) values
        (within.1.body_arity pred mem)).bind fun τ v grows _ => ?_
      split
      · exact ih (keeps.mono grows) (fun c mem => (within.2 c mem).mono grows.scope)
          (values.mono grows.scope)
      · exact .pure trivial

/-- A round stores results in the slots of the variables. -/
theorem advance_keeps (keeps : run.Keeps σ) {clauses : List (LoopClause × Option Slot)}
    (within : ∀ c ∈ clauses, c.1.Scoped σ.scope carried count)
    (slots : ∀ c ∈ clauses, ∀ slot, c.2 = some slot → slot < carried + count)
    (values : Frame σ.scope (carried + count) frame) :
    Exec.Keeps σ (advance run.call frame clauses)
      fun τ vs => Frame τ.scope (carried + count) vs := by
  induction clauses generalizing σ frame with
  | nil => exact .pure values
  | cons head rest ih =>
    obtain ⟨c, slot⟩ := head
    rw [List.forall_mem_cons] at within slots
    unfold advance
    split
    · exact ih keeps within.2 slots.2 values
    · next step found =>
      have mem := mem_bodyFunctions_of_step found
      refine (onLeading_keeps keeps (within.1.known step (mem_functions_of_body mem)) values
        (within.1.body_arity step mem)).bind fun τ v grows inScope => ?_
      have later := fun c mem => (within.2 c mem).mono grows.scope
      cases slot with
      | none => exact ih (keeps.mono grows) later slots.2 (values.mono grows.scope)
      | some slot =>
        dsimp only [store]
        rw [if_pos (by rw [values.length_eq]; exact slots.1 slot rfl), pure_bind]
        exact ih (keeps.mono grows) later slots.2 ((values.mono grows.scope).set slot inScope)

theorem finish_keeps (keeps : run.Keeps σ) {clauses : List LoopClause}
    (chosen : Option Nat) (index : Nat) {result : Value}
    (within : ∀ c ∈ clauses, c.Scoped σ.scope carried count)
    (values : Frame σ.scope (carried + count) frame) (inScope : result.InScope σ.scope) :
    Exec.Keeps σ (finish run.call frame chosen index result clauses)
      fun τ v => v.InScope τ.scope := by
  induction clauses generalizing σ index result with
  | nil => exact .pure inScope
  | cons c rest ih =>
    rw [List.forall_mem_cons] at within
    unfold finish
    split
    · exact ih keeps _ within.2 values inScope
    · next fini found =>
      have mem := mem_bodyFunctions_of_fini found
      refine (onLeading_keeps keeps (within.1.known fini (mem_functions_of_body mem)) values
        (within.1.body_arity fini mem)).bind fun τ v grows yielded => ?_
      refine ih (keeps.mono grows) _ (fun c mem => (within.2 c mem).mono grows.scope)
        (values.mono grows.scope) ?_
      split
      · exact yielded
      · exact inScope.mono grows.scope

section

variable {plan : LoopPlan}

/-- Each clause has a slot of the frame, or none. -/
theorem Scoped.slots {count : Nat} (within : plan.Scoped S count) :
    ∀ c ∈ plan.clauses.zip plan.slots, ∀ slot, c.2 = some slot → slot < plan.carried.length := by
  rintro ⟨c, slot⟩ mem slot' ⟨⟩
  rw [within.slots_eq] at mem
  have inside := slot_inside (List.of_mem_zip mem).2
  rw [within.carried_eq]
  exact Nat.lt_of_lt_of_eq inside (Nat.zero_add _)

theorem Scoped.zipped {count : Nat} (within : plan.Scoped S count) :
    ∀ c ∈ plan.clauses.zip plan.slots, c.1.Scoped S plan.carried.length count :=
  fun _ mem => within.clauses _ (List.of_mem_zip mem).1

theorem rounds_keeps (keeps : run.Keeps σ) (within : plan.Scoped σ.scope count)
    (values : Frame σ.scope (plan.carried.length + count) frame) (limit : Nat) :
    Exec.Keeps σ (rounds run.call plan limit frame) fun τ v => v.InScope τ.scope := by
  induction limit generalizing σ frame with
  | zero => exact .exhausted
  | succ n ih =>
    unfold rounds
    refine (goesOn_keeps keeps within.clauses values).bind fun τ another grows _ => ?_
    have keeps := keeps.mono grows
    have within := within.mono grows.scope
    have values := values.mono grows.scope
    split
    · have inside := fun c mem slot found => Nat.lt_add_right count (within.slots c mem slot found)
      refine (advance_keeps keeps within.zipped inside values).bind fun ρ next grows' values => ?_
      exact ih (keeps.mono grows') (within.mono grows'.scope) values
    · exact finish_keeps keeps _ _ within.clauses values (.plain rfl)

/-- The frame of a loop over so many parameters has a value for each variable and each parameter,
from the start on and after every round. -/
structure KeepsFrame (plan : LoopPlan) (count : Nat) : Prop where
  start : ∀ (call : Caller) (args vs : List Value) (s t : State), args.length = count →
    start call plan.carried args (plan.clauses.zip plan.slots) s = (.ok vs, t) →
    (vs ++ args).length = plan.carried.length + count
  advance : ∀ (call : Caller) (frame frame' : List Value) (s t : State),
    advance call frame (plan.clauses.zip plan.slots) s = (.ok frame', t) →
    frame'.length = frame.length

theorem Scoped.keepsFrame (within : plan.Scoped S count) : plan.KeepsFrame count where
  start call args vs s t lengths done := by
    rw [List.length_append, start_length call done, within.slots_eq, countP_slots,
      within.carried_eq, lengths]
  advance call _ _ _ _ done := advance_length call done

/-- A scoped loop is not stuck: it starts with a value for each variable, and keeps as many. -/
theorem run_keeps (keeps : run.Keeps σ) (within : plan.Scoped σ.scope count) {args : List Value}
    (values : Frame σ.scope count args) (limit : Nat) :
    Exec.Keeps σ (plan.run run.call limit args) fun τ v => v.InScope τ.scope := by
  have started := (start_keeps keeps within.zipped within.slots values).also fun s vs t =>
    within.keepsFrame.start run.call args vs s t values.length_eq
  unfold LoopPlan.run
  refine started.bind fun τ vs grows here => ?_
  have inScope := List.forall_mem_append.2 ⟨here.1, (values.mono grows.scope).inScope⟩
  exact rounds_keeps (keeps.mono grows) (within.mono grows.scope) ⟨inScope, here.2⟩ limit

end
end LoopPlan

/-! Steps and programs. -/

namespace Step

theorem runBranch_keeps (keeps : run.Keeps σ) {test target fallback : Handle} {width : Nat}
    {args : List Value} (testKnown : σ.scope.handle test) (targetKnown : σ.scope.handle target)
    (fallbackKnown : σ.scope.handle fallback) (frame : Frame σ.scope width args)
    (targetArity : target.arity = width) (fallbackArity : fallback.arity = width)
    (testArity : test.arity ≤ width) :
    Exec.Keeps σ (runBranch run test target fallback args) fun τ v => v.InScope τ.scope := by
  obtain ⟨ws, taken, fits⟩ := frame.leading testArity
  unfold runBranch
  rw [taken, pure_bind]
  refine (keeps.call testKnown fits).bind fun τ v grows _ => ?_
  have frame := frame.mono grows.scope
  split
  · exact (keeps.mono grows).call (grows.scope.handle _ targetKnown) (targetArity ▸ frame)
  · exact (keeps.mono grows).call (grows.scope.handle _ fallbackKnown) (fallbackArity ▸ frame)

theorem runCatching_keeps (keeps : run.Keeps σ) {target handler : Handle} {width : Nat}
    (exception : RefType) {args : List Value} (targetKnown : σ.scope.handle target)
    (handlerKnown : σ.scope.handle handler) (frame : Frame σ.scope width args)
    (targetArity : target.arity = width) (some : 1 ≤ handler.arity)
    (handlerArity : handler.arity ≤ width + 1) :
    Exec.Keeps σ (runCatching run target exception handler args)
      fun τ v => v.InScope τ.scope := by
  unfold runCatching
  refine (keeps.call targetKnown (targetArity ▸ frame)).attempt.bind
    fun τ answer grows ends => ?_
  cases answer with
  | ok v => exact .pure ends
  | error failure =>
    dsimp only
    split
    · next eq => cases eq
    · next t eq =>
      rw [if_neg (by omega : ¬ handler.arity = 0)]
      split
      · obtain ⟨ws, taken, fits⟩ := (frame.mono grows.scope).leading
          (by omega : handler.arity - 1 ≤ width)
        rw [taken, pure_bind]
        refine (keeps.mono grows).call (grows.scope.handle _ handlerKnown) ?_
        have all := (Frame.single (.throwable t)).append fits
        rwa [show 1 + (handler.arity - 1) = handler.arity by omega] at all
      · exact .refuse
    · exact .refuse

theorem outcome_frame (ret : Kind) (failure : Option Throwable) {result : Value}
    (inScope : result.InScope S) : Frame S (aheadOf ret) (outcome ret failure result) := by
  have first : (reason failure).InScope S := by
    cases failure with
    | none => exact .plain rfl
    | some t => exact .throwable t
  unfold outcome aheadOf
  cases ret.isVoid with
  | true => exact .single first
  | false => exact (Frame.single first).append (.single inScope)

/-- A cleanup runs on the outcome, and on as many leading arguments as it takes beyond it. -/
theorem runCleanup_keeps (keeps : run.Keeps σ) {ret : Kind} {cleanup : Handle} {width : Nat}
    {args : List Value} (failure : Option Throwable) {result : Value}
    (known : σ.scope.handle cleanup) (frame : Frame σ.scope width args)
    (ahead : aheadOf ret ≤ cleanup.arity) (leads : cleanup.arity ≤ width + aheadOf ret)
    (inScope : result.InScope σ.scope) :
    Exec.Keeps σ (runCleanup run ret cleanup args failure result)
      fun τ v => v.InScope τ.scope := by
  have fixed := outcome_frame ret failure inScope
  have enough : ¬ cleanup.arity < (outcome ret failure result).length := by
    rw [fixed.length_eq]
    omega
  obtain ⟨ws, taken, fits⟩ := frame.leading (by omega : cleanup.arity - aheadOf ret ≤ width)
  have passed := fixed.append fits
  rw [Nat.add_sub_cancel' ahead] at passed
  unfold runCleanup
  dsimp only
  rw [if_neg enough, fixed.length_eq, taken, pure_bind]
  refine (keeps.call known passed).attempt.bind fun τ answer _ ends => ?_
  cases answer with
  | ok v => exact .pure ends
  | error raised =>
    dsimp only
    split
    · split
      · exact (Throwable.suppress_keeps _ _).bind fun _ _ _ _ => .refuse
      · exact .refuse
    · exact .refuse

theorem runFinishing_keeps (keeps : run.Keeps σ) {target cleanup : Handle} {width : Nat}
    {args : List Value} (targetKnown : σ.scope.handle target)
    (cleanupKnown : σ.scope.handle cleanup) (frame : Frame σ.scope width args)
    (targetArity : target.arity = width) (ahead : aheadOf target.signature.ret ≤ cleanup.arity)
    (leads : cleanup.arity ≤ width + aheadOf target.signature.ret) :
    Exec.Keeps σ (runFinishing run target cleanup args) fun τ v => v.InScope τ.scope := by
  unfold runFinishing
  refine (keeps.call targetKnown (targetArity ▸ frame)).attempt.bind fun τ answer grows ends => ?_
  have frame := frame.mono grows.scope
  have known := grows.scope.handle _ cleanupKnown
  cases answer with
  | ok v => exact runCleanup_keeps (keeps.mono grows) none known frame ahead leads ends
  | error failure =>
    refine .check fun _ => ?_
    refine (asThrowable_keeps failure).bind fun ρ t grows' _ => ?_
    refine (runCleanup_keeps (keeps.mono (grows.trans grows')) (some t)
      (grows'.scope.handle _ known) (frame.mono grows'.scope) ahead leads
      (.plain (Value.isPlain_zero _))).bind fun _ _ _ _ => ?_
    exact .refuse

theorem checkResult_keeps (kind : Kind) {v : Value} (inScope : v.InScope σ.scope) :
    Exec.Keeps σ (checkResult kind v) fun τ w => w.InScope τ.scope := by
  unfold checkResult
  split
  · exact .pure (.plain rfl)
  · split
    · exact .pure inScope
    · exact .refuse

theorem spreadItem_keeps {index length : Nat} (inside : index < length) {v : Value}
    (inScope : v.InScope σ.scope) :
    Exec.Keeps σ (spreadItem index length v) fun τ w => w.InScope τ.scope := by
  unfold spreadItem
  split
  · next items =>
    have items_inScope := Value.inScope_array_iff.1 inScope
    split
    · next lengths =>
      have found := List.getElem?_eq_getElem (lengths ▸ inside : index < items.length)
      exact .ofSome ⟨_, found, items_inScope _ (List.mem_of_getElem? found)⟩
    · exact .refuse
  · exact .refuse

/-- A scoped step is not stuck. -/
theorem perform_keeps (keeps : run.Keeps σ) {step : Step} {width : Nat} {frame : List Value}
    (within : step.Scoped σ.scope width) (values : Frame σ.scope width frame) (limit : Nat)
    (kind : Kind) :
    Exec.Keeps σ (perform run limit kind step frame) fun τ v => v.InScope τ.scope := by
  unfold perform
  cases within with
  | const inScope => exact .pure inScope
  | convert inside =>
    obtain ⟨v, here, inScope⟩ := values.getElem? inside
    dsimp only
    rw [here]
    exact .ofExcept ((Value.convert_ends _ _ _).imp fun _ done =>
      Value.inScope_of_convert inScope done)
  | leaf action inside =>
    obtain ⟨ws, gathered, fits⟩ := values.gather inside
    dsimp only
    rw [gathered, pure_bind]
    refine (keeps σ (.action _) ws (.refl σ) (fits.length_eq.symm ▸ action) fits.inScope).bind
      fun τ v _ inScope => checkResult_keeps kind inScope
  | call target passes =>
    obtain ⟨ws, gathered, fits⟩ := values.passes passes
    dsimp only
    rw [gathered, pure_bind]
    exact keeps.call target fits
  | branch test target fallback passes same leads =>
    obtain ⟨ws, gathered, fits⟩ := values.passes passes
    dsimp only
    rw [gathered, pure_bind]
    rw [passes.length_eq] at leads
    exact runBranch_keeps keeps test target fallback fits rfl same leads
  | catching target handler passes some leads =>
    obtain ⟨ws, gathered, fits⟩ := values.passes passes
    dsimp only
    rw [gathered, pure_bind]
    rw [passes.length_eq] at leads
    exact runCatching_keeps keeps _ target handler fits rfl some leads
  | finishing target cleanup passes ahead leads =>
    obtain ⟨ws, gathered, fits⟩ := values.passes passes
    dsimp only
    rw [gathered, pure_bind]
    rw [passes.length_eq] at leads
    exact runFinishing_keeps keeps target cleanup fits rfl ahead leads
  | loop plan inside =>
    obtain ⟨ws, gathered, fits⟩ := values.gather inside
    dsimp only
    rw [gathered, pure_bind]
    exact LoopPlan.run_keeps keeps plan fits limit
  | collect inside =>
    obtain ⟨ws, gathered, fits⟩ := values.gather inside
    dsimp only
    rw [gathered, pure_bind]
    exact .pure (.array fits.inScope)
  | spread inside index =>
    obtain ⟨v, here, inScope⟩ := values.getElem? inside
    dsimp only
    rw [here]
    exact spreadItem_keeps index inScope
  | dynamic site passes =>
    obtain ⟨ws, gathered, fits⟩ := values.passes passes
    dsimp only
    rw [gathered]
    refine (CallSite.target_keeps site).bind fun τ target grows known => ?_
    rw [pure_bind]
    refine (keeps.mono grows).call known.1 ?_
    rw [show target.arity = _ from Signature.arity_congr known.2]
    exact fits.mono grows.scope

end Step

namespace Program

/-- Scoped bindings append one value each to the frame. -/
theorem fill_keeps (keeps : run.Keeps σ) {bindings : List Binding} {width : Nat}
    {frame : List Value} (within : BindingsScoped σ.scope width bindings)
    (values : Frame σ.scope width frame) (limit : Nat) :
    Exec.Keeps σ (fill run limit frame bindings)
      fun τ vs => Frame τ.scope (width + bindings.length) vs := by
  induction bindings generalizing width frame σ with
  | nil => exact .pure values
  | cons b rest ih =>
    unfold fill
    refine (Step.perform_keeps keeps within.1 values limit b.kind).bind fun τ v grows inScope => ?_
    rw [List.length_cons, Nat.add_comm rest.length, ← Nat.add_assoc]
    exact ih (keeps.mono grows) (within.2.mono grows.scope)
      ((values.mono grows.scope).append (.single inScope))

/-- A scoped program is not stuck on as many arguments as its signature has. -/
theorem perform_keeps (keeps : run.Keeps σ) {p : Program} {s : Signature} {args : List Value}
    (within : p.Scoped σ.scope s) (values : Frame σ.scope s.arity args) (limit : Nat) :
    Exec.Keeps σ (p.perform run limit args) fun τ v => v.InScope τ.scope := by
  unfold perform
  refine (fill_keeps keeps within.bindings values limit).bind fun τ frame _ values => ?_
  cases slot : p.result with
  | none => exact .pure (.plain rfl)
  | some slot' =>
    obtain ⟨v, here, inScope⟩ := values.getElem? (within.result_inside slot' slot)
    exact .ofSome ⟨v, here, inScope⟩

end Program

/-! Actions. -/

theorem receiver_keeps (owner : ClassDef) (args : List Value) :
    Exec.Keeps σ (receiver owner args) fun _ _ => True := by
  unfold receiver
  split
  · exact .pure trivial
  · exact throwNew_keeps _ _
  · exact throwNew_keeps _ _
  · exact .refuse

theorem fieldIndex_keeps (o : ObjectRef) (name : String) :
    Exec.Keeps σ (fieldIndex o name) fun _ _ => True := by
  unfold fieldIndex
  split
  · exact .pure trivial
  · exact .refuse

/-- A function of the library finds the arguments that it looks at. -/
theorem Intrinsic.perform_keeps {f : Intrinsic} {args : List Value}
    (within : (Action.intrinsic f).Scoped σ.scope args.length)
    (inScope : ∀ v ∈ args, v.InScope σ.scope) :
    Exec.Keeps σ (f.perform args) fun τ v => v.InScope τ.scope := by
  obtain ⟨needs, lambda⟩ := within
  unfold perform
  cases f with
  | throwArgument =>
    dsimp only
    split
    · exact .refuse
    · exact throwNew_keeps _ _
    · exact throwNew_keeps _ _
    · exact .refuse
  | arrayItem =>
    match args, needs with
    | first :: second :: rest, _ =>
      dsimp only
      split
      · next items index _ eq =>
        cases eq
        have items_inScope := Value.inScope_array_iff.1 (inScope _ List.mem_cons_self)
        split
        · next item found =>
          split at found
          · cases found
          · exact .pure (items_inScope item (List.mem_of_getElem? found))
        · exact throwNew_keeps _ _
      · exact throwNew_keeps _ _
      · exact .refuse
      · next none =>
        exact absurd rfl (none first second rest)
  | arrayLength =>
    match args, needs with
    | first :: rest, _ =>
      dsimp only
      split
      · exact .pure (.plain rfl)
      · exact throwNew_keeps _ _
      · exact .refuse
      · next eq => cases eq
  | intLess =>
    match args, needs with
    | first :: second :: rest, _ =>
      dsimp only
      split
      · exact .pure (.plain rfl)
      · exact .pure (.plain rfl)
      · next none => exact absurd rfl (none first second rest)
  | intIncrement =>
    match args, needs with
    | first :: rest, _ => exact .pure (.plain rfl)
  | lambda name implementation instantiated =>
    obtain ⟨known, wf, -⟩ := lambda name implementation instantiated rfl
    refine (Exec.Keeps.ofBuild_handle (Build.allocate_keeps σ.scope_complete
      (Blueprint.insertArguments_scoped known 0 inScope))).bind fun τ bound _ made => ?_
    refine (Exec.Keeps.ofBuild_handle
      (Handle.asType_keeps τ.scope_complete made wf)).bind fun ρ a _ adapter => ?_
    exact .pure (.handle adapter)

/-- An action is not stuck on as many arguments as it is scoped over. -/
theorem Action.perform_keeps {native : HostFunction → List Value → Exec Value} {action : Action}
    {args : List Value}
    (host : ∀ τ f args, σ.Grows τ → (∀ v ∈ args, v.InScope τ.scope) →
      Exec.Keeps τ (native f args) fun ρ v => v.InScope ρ.scope)
    (within : action.Scoped σ.scope args.length) (inScope : ∀ v ∈ args, v.InScope σ.scope) :
    Exec.Keeps σ (action.perform native args) fun τ v => v.InScope τ.scope := by
  unfold perform
  cases action with
  | host f => exact host σ f args (.refl σ) inScope
  | intrinsic f => exact Intrinsic.perform_keeps within inScope
  | virtual owner name =>
    refine (receiver_keeps owner args).bind fun τ o grows _ => ?_
    split
    · exact host τ _ args grows fun v mem => (inScope v mem).mono grows.scope
    · exact .refuse
  | getField owner name =>
    refine (receiver_keeps owner args).bind fun τ o _ _ => ?_
    refine (fieldIndex_keeps o name).bind fun τ index _ _ => ?_
    refine Exec.Keeps.get.bind fun τ s _ inWorld => ?_
    split
    · next v found => exact .pure (inWorld.field found)
    · exact .refuse
  | setField owner name =>
    have stored : (args.getLast?.getD .null).InScope σ.scope := by
      cases last : args.getLast? with
      | none => exact .plain rfl
      | some v => exact inScope v (List.mem_of_getLast? last)
    dsimp only
    refine (receiver_keeps owner args.dropLast).bind fun τ o grows _ => ?_
    refine (fieldIndex_keeps o name).bind fun ρ index grows' _ => ?_
    refine (ObjectRef.setField_keeps o index (stored.mono (grows.trans grows').scope)).bind
      fun _ done _ _ => ?_
    split
    · exact .pure (.plain rfl)
    · exact .refuse
  | construct c =>
    refine .check fun _ => ?_
    exact (newObject_keeps c inScope).bind fun _ o _ _ => .pure (.object o)

/-! Invocations. -/

namespace Handle

theorem invokeExact_keeps (keeps : run.Keeps σ) {h : Handle} {args : List Value}
    (known : σ.scope.handle h) (inScope : ∀ v ∈ args, v.InScope σ.scope) :
    Exec.Keeps σ (h.invokeExact run args) fun τ v => v.InScope τ.scope := by
  unfold invokeExact
  refine Exec.Keeps.bind (P := fun τ _ => τ = σ ∧ Conform args h.signature.params)
    (.ofExcept ((h.checkArguments_ends args).imp fun _ conform => ⟨rfl, conform⟩)) ?_
  rintro τ _ - ⟨rfl, conform⟩
  exact keeps.call known ⟨inScope, conform.length_eq⟩

theorem invokeAs_keeps (keeps : run.Keeps σ) {h : Handle} {caller : Signature} {args : List Value}
    (known : σ.scope.handle h) (wf : caller.WellFormed)
    (inScope : ∀ v ∈ args, v.InScope σ.scope) :
    Exec.Keeps σ (h.invokeAs run caller args) fun τ v => v.InScope τ.scope := by
  unfold invokeAs
  refine (Exec.Keeps.ofBuild_handle (adaptedTo_keeps σ.scope_complete known wf)).bind
    fun τ adapted grows made => ?_
  exact invokeExact_keeps (keeps.mono grows) made fun v mem => (inScope v mem).mono grows.scope

theorem invoke_keeps (keeps : run.Keeps σ) {h : Handle} {args : List Value}
    (known : σ.scope.handle h) (inScope : ∀ v ∈ args, v.InScope σ.scope) :
    Exec.Keeps σ (h.invoke run args) fun τ v => v.InScope τ.scope := by
  unfold invoke
  refine .check fun _ => ?_
  refine Exec.Keeps.bind (P := fun τ caller => τ = σ ∧ caller.WellFormed)
    (.ofExcept ((Signature.make_ends _ _).imp fun _ made => ⟨rfl, made.2⟩)) ?_
  rintro τ caller - ⟨rfl, wf⟩
  exact invokeAs_keeps keeps known wf inScope

end Handle
end TypedHandles
