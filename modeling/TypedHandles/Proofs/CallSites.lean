import TypedHandles.Proofs.Attained
import TypedHandles.Proofs.Adapting

/-!
Call sites over any run. A site's target has the signature of the site, whatever retargets it and
from where; so a dynamic step may call the target that it reads without a check, and whatever the
target then stores in the site is seen by later steps alone.
-/
namespace TypedHandles

/-- The state after a call site got another target. -/
def State.withTarget (s : State) (c : CallSite) (target : Handle) : State :=
  { s with
    sites := s.sites.modify c.id fun cell => ⟨some target, cell.generation + 1⟩
    journal := .retargeted c target :: s.journal }

/-- The outcome of reading the target of a call site that is not linked. -/
def CallSite.unlinked (c : CallSite) (s : State) : Except Halt Value × State :=
  (.error (.failed (.unlinkedCallSite c.signature)), s)

/-- What a state says of a call site whose first target was the given one. -/
structure CallSite.HoldsIn (c : CallSite) (first : Option Handle) (s : State) : Prop where
  latest : s.target? c = (s.journal.findSome? (Event.newTarget? c.id)).or first
  constant : c.kind = .constant → s.target? c = first
  /-- The count of successful retargets is kept in 64 bits. -/
  generation : s.generation c = s.journal.countP (Event.retargets c.id) % UInt64.size
  signature : ∀ target, s.target? c = some target → (target.signature == c.signature) = true

/-- What a setter of a call site does in a state. -/
structure CallSite.SetsIn (c : CallSite) (s : State) (set : Handle → Exec Unit) : Prop where
  constant : ∀ h, c.kind = .constant →
    set h s = (.error (.failed (.illegalRetarget (.constant c.signature))), s)
  mismatch : ∀ h, c.kind ≠ .constant → (h.signature == c.signature) = false →
    set h s = (.error (.failed (.illegalRetarget (.mismatch h.signature c.signature))), s)
  stores : ∀ h, c.kind ≠ .constant → (h.signature == c.signature) = true →
    set h s = (.ok (), s.withTarget c h)

/-- What storing a target in a call site changes. -/
structure CallSite.StoredIn (c : CallSite) (s : State) (target : Handle) : Prop where
  stored : (s.withTarget c target).target? c = some target
  generation : (s.withTarget c target).generation c = (s.generation c + 1) % UInt64.size
  others : ∀ d : CallSite, d.id ≠ c.id → (s.withTarget c target).cell? d = s.cell? d

variable {c : CallSite} {s : State}

/-! Setters. -/

namespace CallSite

theorem setTargetPlain_eq (c : CallSite) : c.setTargetPlain = c.setTargetFenced := by
  funext h
  unfold setTargetPlain
  split
  · rfl
  · rfl

theorem setTarget_eq (c : CallSite) : c.setTarget = c.setTargetFenced := by
  funext h
  unfold setTarget
  split
  · rfl
  · rw [setTargetPlain_eq]
  · rw [setTargetPlain_eq]

theorem setTargetFenced_setsIn (c : CallSite) (s : State) : c.SetsIn s c.setTargetFenced where
  constant h constant := by
    unfold setTargetFenced checkRetarget
    rw [if_pos constant]
    rfl
  mismatch h other differ := by
    unfold setTargetFenced checkRetarget
    rw [if_neg other, bne, differ]
    rfl
  stores h other same := by
    unfold setTargetFenced checkRetarget
    rw [if_neg other, bne, same]
    rfl

/-- A store is a change of one cell. -/
theorem storedIn (inside : c.id < s.sites.size) (target : Handle) : c.StoredIn s target := by
  have found := Array.getElem?_eq_getElem inside
  have cell : (s.withTarget c target).cell? c =
      some ⟨some target, s.sites[c.id].generation + 1⟩ := by
    simp [State.cell?, State.withTarget, Array.getElem?_modify, found]
  refine ⟨?_, ?_, fun d other => ?_⟩
  · rw [State.target?, cell]
    rfl
  · unfold State.generation
    rw [cell, State.cell?, found]
    exact UInt64.toNat_add _ _
  · simp [State.cell?, State.withTarget, Array.getElem?_modify, Ne.symm other]

end CallSite

/-! Dynamic steps. -/

/-- A dynamic step calls the target that stands in the site when it starts. -/
theorem Step.dynamic_eq {run : Runner} {limit : Nat} {kind : Kind} {frame args : List Value}
    {slots : List Slot} (gathered : gather frame slots = pure args) (s : State) :
    (Step.dynamic c slots).perform run limit kind frame s =
      match s.target? c with
      | some target => run.call target args s
      | none => c.unlinked s := by
  unfold perform
  dsimp only
  rw [gathered]
  simp only [pure_bind]
  unfold CallSite.target
  rw [bind_assoc, bind_get]
  cases s.target? c with
  | some target => rfl
  | none => rfl

/-- A program that has no result slot yields nothing, so nothing is left to drop. -/
theorem Program.perform_kept {run : Runner} {limit : Nat} {p : Program} {ret : Kind}
    (isNone : p.result.isNone = ret.isVoid) (args : List Value) :
    (do
      let v ← p.perform run limit args
      return ret.kept v) = p.perform run limit args := by
  unfold Kind.kept
  cases void : ret.isVoid with
  | false => exact bind_pure _
  | true =>
    rw [void, Option.isNone_iff_eq_none] at isNone
    unfold perform
    simp only [isNone, bind_assoc, pure_bind]
    rfl

namespace Handle

theorem call_kept {h : Handle} {ret : Kind} (isNone : h.program.result.isNone = ret.isVoid)
    (host : Host) (n : Nat) (args : List Value) :
    (do
      let v ← (runCode host n).call h args
      return ret.kept v) = (runCode host n).call h args := by
  cases n with
  | zero => rfl
  | succ n => exact Program.perform_kept isNone args

end Handle

/-- A dynamic invoker does what the target of its site does. -/
theorem CallSite.invoker_invokeExact {σ : World} {t t' : HandleTable} {invoker : Handle}
    (made : (Blueprint.dynamicInvoker c).make t = (.ok invoker, t')) (inWorld : s.InWorld σ)
    (site : σ.Site c) {args : List Value} (conform : Conform args c.signature.params) (host : Host)
    (n : Nat) :
    invoker.invokeExact (runCode host (n + 1)) args s =
      match s.target? c with
      | some target => target.invokeExact (runCode host n) args s
      | none => c.unlinked s := by
  cases made
  have lengths : args.length = c.signature.arity := conform.length_eq
  rw [Handle.invokeExact_of_conform _ conform]
  show (Program.single c.signature (.dynamic c)).perform (runCode host n) n args s = _
  rw [Program.single_perform lengths]
  have step : (Step.dynamic c (Program.slots 0 c.signature.arity)).perform (runCode host n) n
      c.signature.ret args s = _ := Step.dynamic_eq (Step.gather_all lengths) s
  cases found : s.target? c with
  | none =>
    rw [found] at step
    exact bind_of_error step
  | some target =>
    rw [found] at step
    obtain ⟨known, same⟩ := inWorld.target site found
    obtain ⟨ret, params⟩ := Signature.beq_iff_parts.1 same
    have fits := ((σ.scope_complete.handle_iff target).1 known).blueprint.program
    have isNone : target.program.result.isNone = c.signature.ret.isVoid :=
      fits.result_isNone.trans (Kind.isVoid_congr ret)
    dsimp only
    rw [target.invokeExact_of_conform _ ((conform_congr params args).2 conform),
      ← target.call_kept isNone host n args]
    exact bind_congr_at step

/-! Call sites over any run. -/

theorem State.InWorld.holdsIn {σ : World} (inWorld : s.InWorld σ) (site : σ.Site c)
    {o : SiteOrigin} (origin : σ.sites[c.id]? = some o) : c.HoldsIn o.target s := by
  obtain ⟨cell, o', hcell, kind, -, origin', follows⟩ := inWorld.cell site
  cases origin.symm.trans origin'
  have target : s.target? c = cell.target := by rw [State.target?, hcell]; rfl
  have latest : s.target? c = (s.journal.findSome? (Event.newTarget? c.id)).or o.target :=
    target.trans follows.target_eq
  refine ⟨latest, fun constant => ?_, ?_, fun h found => ?_⟩
  · -- no retarget of a constant site passes the check, so none is noted
    rw [latest, List.findSome?_eq_none_iff.2]
    · rfl
    · intro e mem
      unfold Event.newTarget?
      split
      · next d h =>
        obtain ⟨⟨-, o', known, kind', -⟩, passed⟩ := inWorld.noted d h mem
        by_cases same : d.id = c.id
        · rw [same] at known
          cases origin.symm.trans known
          exact absurd (kind'.symm.trans (kind.trans constant))
            (CallSite.checkRetarget_eq_ok passed).1
        · exact if_neg same
      · rfl
  · unfold State.generation
    rw [hcell]
    show cell.generation.toNat = _
    rw [follows.generation_eq]
    exact UInt64.toNat_ofNat'
  · exact (inWorld.target site found).2

/-- What holds of a call site that users hold, in any state after any run, also in the middle of an
operation: its target is the latest that it was given, of its own signature; the setters refuse or
store, all three alike, and change nothing else; whatever was retargeted on the way was no constant
site, and got a target of its signature; and a dynamic step does what the target does that stands in
the site when it starts. -/
theorem CallSite.run_invariant {point : Nat → UInt64 → Signature → Prop} {values : List Value}
    (attained : Attained point values s) (held : Among values (.callSite c)) :
    ∃ first : Option Handle, ∀ (values' : List Value) (s' : State),
      Run point values s values' s' →
        c.HoldsIn first s' ∧
        (∀ set ∈ [c.setTarget, c.setTargetPlain, c.setTargetFenced],
          c.SetsIn s' set ∧ set = c.setTarget) ∧
        (∀ target, c.StoredIn s' target) ∧
        (∀ (d : CallSite) (target : Handle), .retargeted d target ∈ s'.journal →
          d.kind ≠ .constant ∧ (target.signature == d.signature) = true) ∧
        (∀ (run : Runner) (limit : Nat) (kind : Kind) (frame args : List Value)
          (slots : List Slot) (u : State), Step.gather frame slots = pure args →
          (Step.dynamic c slots).perform run limit kind frame u =
            match u.target? c with
            | some target => run.call target args u
            | none => c.unlinked u) ∧
        ∀ (t t' : HandleTable) (invoker : Handle) (host : Host) (n : Nat) (args : List Value),
          (Blueprint.dynamicInvoker c).make t = (.ok invoker, t') →
          Conform args c.signature.params →
          invoker.invokeExact (runCode host (n + 1)) args s' =
            match s'.target? c with
            | some target => target.invokeExact (runCode host n) args s'
            | none => c.unlinked s' := by
  obtain ⟨σ, rfl, inWorld, inScope, offered⟩ := attained.inWorld
  have site := offered.site c held
  obtain ⟨-, o, origin, -⟩ := site
  refine ⟨o.target, fun values' s' run => ?_⟩
  obtain ⟨τ, grows, inWorld', -⟩ := run.inWorld inWorld inScope
  have site' := grows.site (offered.site c held)
  have origin' := grows.origin origin
  have inside : c.id < s'.sites.size := by
    rw [inWorld'.site_count]
    exact (List.getElem?_eq_some_iff.1 origin').1
  refine ⟨inWorld'.holdsIn site' origin', ?_, fun target => storedIn inside target,
    fun d target mem => checkRetarget_eq_ok (inWorld'.noted d target mem).2,
    fun run limit kind frame args slots u gathered => Step.dynamic_eq gathered u,
    fun t t' invoker host n args made conform =>
      invoker_invokeExact made inWorld' site' conform host n⟩
  rw [setTargetPlain_eq, setTarget_eq]
  simp only [List.forall_mem_cons, and_true]
  exact ⟨c.setTargetFenced_setsIn s', c.setTargetFenced_setsIn s', c.setTargetFenced_setsIn s',
    List.forall_mem_nil _⟩

/-- A host whose functions give a call site another target, and return a number. -/
def Host.retargeting (c : CallSite) (target : Handle) : Host := fun _ _ =>
  .andThen (.setTarget c target) fun _ => .value (.int 1)

theorem Run.performed_retargeting {values₀ values : List Value} {s₀ : State} {target : Handle}
    {v : Value} {t : State} (run : Run point values₀ s₀ values s) (operation : Operation) (n : Nat)
    (site : Among values (.callSite c)) (known : Among values (.handle target))
    (inScope : operation.InScope (.held point values s))
    (done : operation.answer (runCode (.retargeting c target) n) s = (.ok v, t)) :
    Run point values₀ s₀ (v :: values) t := by
  refine run.performed operation n ?_ inScope done
  intro S f args grows _
  refine ⟨⟨grows.site c site, grows.handle target known⟩, fun _ answer _ _ => ?_⟩
  cases answer with
  | ok v => exact .plain rfl
  | error failure => trivial

/-- A target that replaces itself while it runs: the call goes on with it, and the next call goes to
the target that it stored. -/
theorem CallSite.run_invariant_selfRetargeting :
    ∃ (values : List Value) (s s' t : State) (c : CallSite) (invoker second : Handle),
      Attained (fun _ _ _ => True) values s ∧ Among values (.callSite c) ∧
      Among values (.handle invoker) ∧ Among values (.handle second) ∧
      invoker.invokeExact (runCode (.retargeting c second) 4) [] s = (.ok (.int 1), s') ∧
      s'.target? c = some second ∧ (second.signature == c.signature) = true ∧
      s'.generation c = 1 ∧
      invoker.invokeExact (runCode (.retargeting c second) 4) [] s' =
        second.invokeExact (runCode (.retargeting c second) 3) [] s' ∧
      second.invokeExact (runCode (.retargeting c second) 3) [] s' = (.ok (.int 2), t) := by
  have wf : Signature.WellFormed ⟨.prim .int, []⟩ := ⟨by decide, by simp⟩
  have start : Attained (fun _ _ _ => True) [] .empty := .refl
  have replaced := start.performed (.construct (.constant .int (.int 2))) 1 (Host.idle_inScope _)
    (.plain rfl) rfl
  have replacing := replaced.performed (.construct (.ofAction ⟨.prim .int, []⟩ (.host ⟨0, ""⟩))) 1
    (Host.idle_inScope _) ⟨wf, trivial⟩ rfl
  have placed := replacing.performed (.newSite .mutable _) 1 (Host.idle_inScope _)
    (Among.last rfl) rfl
  have invoker := placed.performed (.construct (.dynamicInvoker _)) 1 (Host.idle_inScope _)
    (Among.last rfl) rfl
  obtain ⟨first, always⟩ := CallSite.run_invariant invoker (Among.last rfl).later
  obtain ⟨holds, -, -, -, -, invokes⟩ := always _ _ (.performed_retargeting .refl
    (.invokeExact _ []) 4 (Among.last rfl).later (Among.last rfl).later.later.later
    ⟨Among.last rfl, List.forall_mem_nil _⟩ rfl)
  exact ⟨_, _, _, _, _, _, _, invoker, (Among.last rfl).later, Among.last rfl,
    (Among.last rfl).later.later.later, rfl, rfl, holds.signature _ rfl, rfl,
    invokes ⟨#[none, none]⟩ _ _ _ 3 [] rfl .nil, rfl⟩

end TypedHandles
