import TypedHandles.Proofs.Adapting
import TypedHandles.Proofs.Fatality

/-!
Stacks of handlers and cleanups around a handle. A layer takes the outcome of what it is around and
settles on another one; the handle under all layers is run once, and the layers settle its outcome
from the inside to the outside.
-/
namespace TypedHandles

/-- What is put around a handle: a handler of throwables of a type, or a cleanup. -/
inductive Layer where
  | catching (exception : RefType) (handler : Handle)
  | finishing (cleanup : Handle)

namespace Layer

/-- The construction that puts a layer around a handle. -/
def construction (target : Handle) : Layer → Construction
  | catching exception handler => .catchException target exception handler
  | finishing cleanup => .tryFinally target cleanup

/-- What a cleanup is run on: why the handle failed, its result if it has one, and as many of the
arguments as the cleanup takes besides. -/
def cleanupArguments (ret : Kind) (args : List Value) (cleanup : Handle) (reason result : Value) :
    List Value :=
  let fixed := reason :: (if ret.isVoid then [] else [result])
  fixed ++ args.take (cleanup.arity - fixed.length)

/-- What a cleanup is told of a failure: the very throwable that was thrown, or a new one that
carries the text of any other failure. -/
def standIn (failure : Failure) : Exec Throwable :=
  match failure.thrown? with
  | some own => pure own
  | none => newThrowable .invocationFailure failure.message

/-- Keeps what was thrown first reachable from what was thrown after it, unless that is the very
same throwable. -/
def keep (earlier : Throwable) (raised : Failure) : Exec Unit :=
  match raised.thrown? with
  | some later => if earlier.id = later.id then pure () else later.suppress earlier
  | none => pure ()

/-- What a layer makes of an outcome. A handler runs on a throwable of its type, and every other
outcome stays as it is. A cleanup runs once unless the outcome is fatal: its result takes the place
of a result but not of a failure, and its own failure takes the place of either. -/
def settle (run : Runner) (ret : Kind) (args : List Value) :
    Layer → Except Failure Value → Exec (Except Failure Value)
  | catching exception handler, .error (.thrown t) =>
    if t.refType.isSubtypeOf exception then
      (run.call handler (.throwable t :: args.take (handler.arity - 1))).attempt
    else pure (.error (.thrown t))
  | catching _ _, outcome => pure outcome
  | finishing cleanup, .ok v =>
    (run.call cleanup (cleanupArguments ret args cleanup .null v)).attempt
  | finishing cleanup, .error failure => do
    if failure.isFatal then return .error failure
    let t ← standIn failure
    let cleaned := run.call cleanup (cleanupArguments ret args cleanup (.throwable t) (.zero ret))
    match ← cleaned.attempt with
    | .ok _ => return .error failure
    | .error raised => do
      keep t raised
      return .error raised

/-- What layers make of an outcome, from the innermost to the outermost. A layer is run at a greater
depth than the layers inside it. -/
def settleAll (host : Host) (depth : Nat) (ret : Kind) (args : List Value) (layers : List Layer)
    (first : Except Failure Value) : Exec (Except Failure Value) :=
  layers.zipIdx.foldlM
    (fun outcome (layer, i) => layer.settle (runCode host (depth + i)) ret args outcome) first

/-- A layer fits around handles of a signature: its function takes what the layer hands to it. -/
def Fits (s : Signature) : Layer → Prop
  | catching _ handler => 0 < handler.arity ∧ handler.arity - 1 ≤ s.arity
  | finishing cleanup =>
    let fixed := if s.ret.isVoid then 1 else 2
    fixed ≤ cleanup.arity ∧ cleanup.arity - fixed ≤ s.arity

/-- The step of a layer around a handle. -/
def step (target : Handle) : Layer → List Slot → Step
  | catching exception handler => .catching target exception handler
  | finishing cleanup => .finishing target cleanup

end Layer

/-- A handle with layers around it, from the innermost to the outermost. -/
inductive Handle.Layered (target : Handle) : List Layer → Handle → Prop
  | bare : Layered target [] target
  | wrap {layers : List Layer} {inner h : Handle} {t t' : HandleTable} (layer : Layer) :
      Layered target layers inner → (layer.construction inner).build t = (.ok h, t') →
      Layered target (layers ++ [layer]) h

/-! What was accepted as a layer fits. -/

/-- An accepted blueprint becomes a handle of its signature and program. -/
theorem Build.of_allocate {b : Checked Blueprint} {Q : Blueprint → Prop} {E : Halt → Prop}
    {h : Handle} {t t' : HandleTable} (ends : Ends E Q b) (made : allocate b t = (.ok h, t')) :
    Q ⟨h.signature, h.program⟩ := by
  unfold allocate at made
  cases b with
  | ok blueprint =>
    cases made
    exact ends
  | error halt => cases made

namespace Blueprint

theorem catching_fits (target : Handle) (exception : RefType) (handler : Handle) :
    Ends Halt.IsStatic
      (fun b => b = ⟨target.signature,
          .single target.signature (.catching target exception handler)⟩ ∧
        (Layer.catching exception handler).Fits target.signature)
      (catching target exception handler) := by
  unfold catching
  refine Ends.check rfl fun _ => ?_
  refine Ends.check rfl fun _ => ?_
  refine Ends.check rfl fun accepts => ?_
  refine Ends.check rfl fun leading => ?_
  obtain ⟨param, rest, params, -⟩ := acceptsFirst_iff.1 (by simpa using accepts)
  have leads : rest.isPrefixOf target.signature.params = true := by
    simpa [Signature.startsWith, Signature.paramsFrom, params] using leading
  have arity : handler.arity = rest.length + 1 := by
    simp [Handle.arity, params]
  have enough := length_le_of_isPrefixOf leads
  refine ⟨rfl, ?_, ?_⟩
  · omega
  · rw [arity]
    exact enough

theorem finishing_fits (target cleanup : Handle) :
    Ends Halt.IsStatic
      (fun b => b = ⟨target.signature, .single target.signature (.finishing target cleanup)⟩ ∧
        (Layer.finishing cleanup).Fits target.signature)
      (finishing target cleanup) := by
  unfold finishing
  refine Ends.check rfl fun _ => ?_
  refine Ends.check rfl fun accepts => ?_
  refine Ends.check rfl fun results => ?_
  refine Ends.check rfl fun leading => ?_
  obtain ⟨param, rest, params, -⟩ := acceptsFirst_iff.1 (by simpa using accepts)
  have enough := length_le_of_isPrefixOf
    (show target.signature.startsWith _ = true by simpa using leading)
  refine ⟨rfl, ?_⟩
  simp only [Signature.paramsFrom, Signature.returnsVoid, List.length_drop, params]
    at enough results
  simp only [Layer.Fits, Handle.arity, Signature.arity, params]
  cases void : target.signature.ret.isVoid with
  | true => simpa [void] using enough
  | false =>
    cases rest with
    | nil =>
      simp only [void] at results
      exact absurd rfl results
    | cons k others => simpa [void] using enough

end Blueprint

/-! Outcomes. -/

/-- What is kept of an outcome: a failure, or what is kept of a result. -/
def Kind.keptOf (ret : Kind) (outcome : Except Failure Value) : Except Failure Value :=
  outcome.map ret.kept

theorem Kind.keptOf_keptOf (ret : Kind) (outcome : Except Failure Value) :
    ret.keptOf (ret.keptOf outcome) = ret.keptOf outcome := by
  cases outcome with
  | ok v => exact congrArg Except.ok (ret.kept_kept v)
  | error failure => rfl

namespace Exec

variable {α β : Type}

theorem attempt_bind_ofExcept (x : Exec α) : x.attempt >>= ofExcept = x := by
  funext s
  have attempted := attempt_apply x s
  match result : x s with
  | (.ok a, t) | (.error (.failed f), t) =>
    rw [result] at attempted
    exact bind_of_ok attempted
  | (.error .stuck, t) | (.error .exhausted, t) =>
    rw [result] at attempted
    exact bind_of_error attempted

/-- A computation that hands on failures and reports none. -/
def Settles (x : Exec α) : Prop := ∀ s failure, (x s).1 ≠ .error (.failed failure)

theorem Settles.pure (a : α) : Settles (Pure.pure a) := nofun

theorem Settles.attempt (x : Exec α) : Settles x.attempt := by
  intro s failure
  rw [attempt_apply]
  match (x s).1 with
  | .ok _ | .error (.failed _) | .error .stuck | .error .exhausted => nofun

theorem Settles.bind {x : Exec α} {f : α → Exec β} (hx : Settles x) (hf : ∀ a, Settles (f a)) :
    Settles (x >>= f) := by
  intro s failure
  match result : x s with
  | (.ok a, t) =>
    rw [bind_of_ok result]
    exact hf a t failure
  | (.error e, t) =>
    have before := hx s failure
    rw [result] at before
    rw [bind_of_error result]
    exact fun failed => before (congrArg Except.error (Except.error.inj failed))

/-- What is kept of a result is kept of the outcome. -/
theorem attempt_kept (x : Exec Value) (ret : Kind) :
    (ret.kept <$> x).attempt = ret.keptOf <$> x.attempt := by
  funext s
  have attempted := attempt_apply x s
  rw [attempt_apply, map_eq_pure_bind, map_eq_pure_bind]
  match result : x s with
  | (.ok a, t) | (.error (.failed f), t) =>
    rw [result] at attempted
    rw [bind_of_ok attempted]
    first | rw [bind_of_ok result] | rw [bind_of_error result]
    rfl
  | (.error .stuck, t) | (.error .exhausted, t) =>
    rw [result] at attempted
    rw [bind_of_error attempted, bind_of_error result]
    rfl

/-- What is kept of a result, by what is kept of the outcome. -/
theorem kept_ofExcept (x : Exec (Except Failure Value)) (ret : Kind) :
    ret.kept <$> (x >>= ofExcept) = (ret.keptOf <$> x) >>= ofExcept := by
  rw [map_bind, bind_map_left]
  refine congrArg (x >>= ·) (funext fun outcome => ?_)
  cases outcome with
  | ok v => rfl
  | error failure => rfl

/-- The outcome of a computation that ends with an outcome. -/
theorem Settles.attempt_outcome {x : Exec (Except Failure α)} (settles : Settles x) :
    (x >>= ofExcept).attempt = x := by
  funext s
  have settles := settles s
  rw [attempt_apply]
  match result : x s with
  | (.ok (.ok a), t) | (.ok (.error f), t) =>
    rw [bind_of_ok result]
    rfl
  | (.error (.failed f), t) =>
    rw [result] at settles
    exact absurd rfl (settles f)
  | (.error .stuck, t) | (.error .exhausted, t) =>
    rw [bind_of_error result]
    rfl

end Exec

/-! One layer. -/

section

variable {run : Runner} {args : List Value} {v : Value}

theorem runCatching_eq {target handler : Handle} {exception : RefType} {ret : Kind}
    (takes : 0 < handler.arity) (enough : handler.arity - 1 ≤ args.length) :
    Step.runCatching run target exception handler args = (do
      let outcome ← (run.call target args).attempt
      let settled ← (Layer.catching exception handler).settle run ret args outcome
      Exec.ofExcept settled) := by
  unfold Step.runCatching
  refine congrArg (_ >>= ·) (funext fun outcome => ?_)
  cases outcome with
  | ok v => rfl
  | error failure =>
    cases failure with
    | thrown t =>
      unfold Layer.settle
      dsimp only
      split
      · rw [if_neg (Nat.ne_of_gt takes), leading_of_le enough, pure_bind,
          Exec.attempt_bind_ofExcept]
      · rfl
    | _ => rfl

/-- A cleanup that fits takes why the handle failed and its result, and leading arguments. -/
theorem Layer.Fits.outcome_length {cleanup : Handle} {s : Signature}
    (fits : (Layer.finishing cleanup).Fits s) (reason : Option Throwable) (v : Value) :
    (Step.outcome s.ret reason v).length ≤ cleanup.arity ∧
      cleanup.arity - (Step.outcome s.ret reason v).length ≤ s.arity := by
  unfold Layer.Fits at fits
  unfold Step.outcome
  cases void : s.ret.isVoid with
  | true => simpa [void] using fits
  | false => simpa [void] using fits

theorem runCleanup_eq {cleanup : Handle} {s : Signature}
    (fits : (Layer.finishing cleanup).Fits s) (lengths : args.length = s.arity)
    (reason : Option Throwable) :
    Step.runCleanup run s.ret cleanup args reason v = (do
      match ← (run.call cleanup
        (Layer.cleanupArguments s.ret args cleanup (Step.reason reason) v)).attempt with
      | .ok w => return w
      | .error raised => do
        reason.forM (Layer.keep · raised)
        Exec.refuse raised) := by
  obtain ⟨takes, enough⟩ := fits.outcome_length reason v
  unfold Step.runCleanup
  dsimp only
  rw [if_neg (Nat.not_lt.2 takes), leading_of_le (lengths ▸ enough), pure_bind]
  refine congrArg (_ >>= ·) (funext fun cleaned => ?_)
  cases cleaned with
  | ok w => rfl
  | error raised =>
    cases reason with
    | none => rfl
    | some earlier =>
      dsimp only [Option.forM, Layer.keep]
      cases raised.thrown? with
      | none => rfl
      | some later => by_cases same : earlier.id = later.id <;> simp [same]

theorem asThrowable_eq (failure : Failure) : asThrowable failure = Layer.standIn failure := by
  cases failure <;> rfl

theorem runFinishing_eq {target cleanup : Handle}
    (fits : (Layer.finishing cleanup).Fits target.signature)
    (lengths : args.length = target.signature.arity) :
    Step.runFinishing run target cleanup args = (do
      let outcome ← (run.call target args).attempt
      let settled ← (Layer.finishing cleanup).settle run target.signature.ret args outcome
      Exec.ofExcept settled) := by
  unfold Step.runFinishing
  dsimp only
  refine congrArg (_ >>= ·) (funext fun outcome => ?_)
  cases outcome with
  | ok v =>
    dsimp only [Layer.settle]
    rw [runCleanup_eq fits lengths]
    refine congrArg (_ >>= ·) (funext fun cleaned => ?_)
    cases cleaned <;> rfl
  | error failure =>
    dsimp only [Layer.settle]
    cases failure.isFatal with
    | true => rfl
    | false =>
      simp only [Bool.false_eq_true, if_false, bind_assoc, asThrowable_eq,
        runCleanup_eq fits lengths]
      refine congrArg (_ >>= ·) (funext fun t => ?_)
      refine congrArg (_ >>= ·) (funext fun cleaned => ?_)
      cases cleaned with
      | ok w => rfl
      | error raised => simp only [Option.forM, bind_assoc]; rfl

end

/-! A stack of layers. -/

namespace Layer

variable {run : Runner} {ret : Kind} {args : List Value}

theorem standIn_settles (failure : Failure) : (standIn failure).Settles := by
  unfold standIn
  cases failure.thrown? with
  | some own => exact .pure own
  | none => nofun

theorem keep_settles (earlier : Throwable) (raised : Failure) : (keep earlier raised).Settles := by
  unfold keep
  cases raised.thrown? with
  | none => exact .pure _
  | some later =>
    dsimp only
    split
    · exact .pure _
    · nofun

/-- Whatever fails in a layer is part of the outcome that it settles on. -/
theorem settle_settles (layer : Layer) (outcome : Except Failure Value) :
    (layer.settle run ret args outcome).Settles := by
  cases layer with
  | catching exception handler =>
    unfold settle
    split
    · next eq =>
      cases eq
      split
      · exact .attempt _
      · exact .pure _
    · exact .pure _
    · next eq => cases eq
    · next eq => cases eq
  | finishing cleanup =>
    cases outcome with
    | ok v => exact .attempt _
    | error failure =>
      dsimp only [settle]
      split
      · exact .pure _
      · refine (standIn_settles failure).bind fun t => ?_
        refine (Exec.Settles.attempt _).bind fun cleaned => ?_
        cases cleaned with
        | ok w => exact .pure _
        | error raised => exact (keep_settles t raised).bind fun _ => .pure _

theorem cleanupArguments_kept (cleanup : Handle) (reason v : Value) :
    cleanupArguments ret args cleanup reason (ret.kept v) =
      cleanupArguments ret args cleanup reason v := by
  unfold cleanupArguments Kind.kept
  cases ret.isVoid with
  | true => rfl
  | false => rfl

/-- Layers look at no more of a result than is kept of it. -/
theorem settle_keptOf (layer : Layer) (outcome : Except Failure Value) :
    ret.keptOf <$> layer.settle run ret args (ret.keptOf outcome) =
      ret.keptOf <$> layer.settle run ret args outcome := by
  cases outcome with
  | error failure => rfl
  | ok v =>
    cases layer with
    | catching exception handler =>
      show ret.keptOf <$> pure (.ok (ret.kept v)) = ret.keptOf <$> (pure (.ok v) : Exec _)
      rw [map_pure, map_pure]
      exact congrArg pure (ret.keptOf_keptOf (.ok v))
    | finishing cleanup =>
      show ret.keptOf <$> (run.call cleanup _).attempt = _
      rw [cleanupArguments_kept]
      rfl

theorem settle_congr (layer : Layer) {x y : Exec (Except Failure Value)}
    (same : ret.keptOf <$> x = ret.keptOf <$> y) :
    ret.keptOf <$> (x >>= layer.settle run ret args) =
      ret.keptOf <$> (y >>= layer.settle run ret args) := by
  have through : ∀ z : Exec (Except Failure Value),
      ret.keptOf <$> (z >>= layer.settle run ret args) =
        (ret.keptOf <$> z) >>= fun outcome => ret.keptOf <$> layer.settle run ret args outcome := by
    intro z
    rw [map_bind, bind_map_left]
    exact congrArg (z >>= ·) (funext fun outcome => (layer.settle_keptOf outcome).symm)
  rw [through, through, same]

/-- What an accepted layer makes of the handle that it is around. -/
theorem of_build {layer : Layer} {target h : Handle} {t t' : HandleTable}
    (made : (layer.construction target).build t = (.ok h, t')) :
    h.signature = target.signature ∧
      h.program = .single target.signature (layer.step target) ∧ layer.Fits target.signature := by
  cases layer with
  | catching exception handler =>
    obtain ⟨same, fits⟩ := Build.of_allocate (Blueprint.catching_fits target exception handler) made
    exact ⟨congrArg Blueprint.signature same, congrArg Blueprint.program same, fits⟩
  | finishing cleanup =>
    obtain ⟨same, fits⟩ := Build.of_allocate (Blueprint.finishing_fits target cleanup) made
    exact ⟨congrArg Blueprint.signature same, congrArg Blueprint.program same, fits⟩

/-- A layer settles the outcome of the handle that it is around. -/
theorem step_perform {layer : Layer} {target : Handle} (fits : layer.Fits target.signature)
    (lengths : args.length = target.signature.arity) (limit : Nat) :
    (layer.step target (Program.slots 0 target.signature.arity)).perform run limit
        target.signature.ret args = (do
      let outcome ← (run.call target args).attempt
      let settled ← layer.settle run target.signature.ret args outcome
      Exec.ofExcept settled) := by
  cases layer with
  | catching exception handler =>
    unfold step Step.perform
    dsimp only
    rw [Step.gather_all lengths, pure_bind]
    exact runCatching_eq fits.1 (lengths ▸ fits.2)
  | finishing cleanup =>
    unfold step Step.perform
    dsimp only
    rw [Step.gather_all lengths, pure_bind]
    exact runFinishing_eq fits lengths

variable {host : Host} {n : Nat}

/-- A call of a handle with a layer around it: the handle is called once, and the layer settles the
outcome. -/
theorem call_eq {layer : Layer} {inner h : Handle} {t t' : HandleTable}
    (made : (layer.construction inner).build t = (.ok h, t'))
    (lengths : args.length = inner.signature.arity) :
    (runCode host (n + 1)).call h args =
      inner.signature.ret.kept <$> ((((runCode host n).call inner args).attempt >>=
        layer.settle (runCode host n) inner.signature.ret args) >>= Exec.ofExcept) := by
  obtain ⟨-, program, fits⟩ := of_build made
  show h.program.perform (runCode host n) n args = _
  rw [program, Program.single_perform lengths, step_perform fits lengths, map_eq_pure_bind]
  simp only [bind_assoc]

/-- The outcome of a handle with a layer around it. -/
theorem call_kept {layer : Layer} {inner h : Handle} {t t' : HandleTable}
    (made : (layer.construction inner).build t = (.ok h, t'))
    (lengths : args.length = inner.signature.arity) :
    inner.signature.ret.keptOf <$> ((runCode host (n + 1)).call h args).attempt =
      inner.signature.ret.keptOf <$> (((runCode host n).call inner args).attempt >>=
        layer.settle (runCode host n) inner.signature.ret args) := by
  let settled := ((runCode host n).call inner args).attempt >>=
    layer.settle (runCode host n) inner.signature.ret args
  have settles : settled.Settles := (Exec.Settles.attempt _).bind (layer.settle_settles ·)
  rw [call_eq made lengths, Exec.attempt_kept, settles.attempt_outcome, ← comp_map]
  exact congrArg (· <$> settled) (funext inner.signature.ret.keptOf_keptOf)

theorem settleAll_concat (layers : List Layer) (layer : Layer) (first : Except Failure Value) :
    settleAll host n ret args (layers ++ [layer]) first =
      settleAll host n ret args layers first >>=
        layer.settle (runCode host (n + layers.length)) ret args := by
  unfold settleAll
  rw [List.zipIdx_append, List.foldlM_append]
  simp

end Layer

/-- Layers settle the outcome of the handle under them. -/
theorem Handle.Layered.call_kept {target h : Handle} {layers : List Layer}
    (layered : target.Layered layers h) {args : List Value}
    (lengths : args.length = target.signature.arity) (host : Host) (n : Nat) :
    h.signature = target.signature ∧
    target.signature.ret.keptOf <$> ((runCode host (n + layers.length)).call h args).attempt =
      target.signature.ret.keptOf <$> (((runCode host n).call target args).attempt >>=
        Layer.settleAll host n target.signature.ret args layers) := by
  induction layered with
  | bare => exact ⟨rfl, congrArg (_ <$> ·) (bind_pure _).symm⟩
  | @wrap layers inner h t t' layer _ made ih =>
    obtain ⟨same, ih⟩ := ih
    refine ⟨(Layer.of_build made).1.trans same, ?_⟩
    have outer := @Layer.call_kept args host (n + layers.length) layer inner h t t' made
      (lengths.trans (by rw [same]))
    rw [same] at outer
    rw [List.length_append, List.length_singleton, ← Nat.add_assoc, outer,
      layer.settle_congr ih, bind_assoc]
    refine congrArg (fun rest => _ <$> (_ >>= rest)) (funext fun first => ?_)
    exact (Layer.settleAll_concat layers layer first).symm

/-- Any stack of handlers and cleanups has the outcome of its layers: on conforming arguments the
handle under them is run once, and each layer settles the outcome of what it is around, from the
innermost to the outermost. What is compared is what a signature keeps of a result: all of it, or
nothing of a `void` one. -/
theorem Handle.invokeExact_layers {target h : Handle} {layers : List Layer}
    (layered : target.Layered layers h) {args : List Value}
    (conform : Conform args target.signature.params) (host : Host) (n : Nat) :
    target.signature.ret.kept <$> h.invokeExact (runCode host (n + layers.length)) args =
      target.signature.ret.kept <$> (do
        let first ← ((runCode host n).call target args).attempt
        let last ← Layer.settleAll host n target.signature.ret args layers first
        Exec.ofExcept last) := by
  obtain ⟨same, outcome⟩ := layered.call_kept conform.length_eq host n
  have invoked : h.invokeExact (runCode host (n + layers.length)) args =
      (runCode host (n + layers.length)).call h args :=
    h.invokeExact_of_conform _ (same ▸ conform)
  have folded : (do
      let first ← ((runCode host n).call target args).attempt
      let last ← Layer.settleAll host n target.signature.ret args layers first
      Exec.ofExcept last) = (((runCode host n).call target args).attempt >>=
        Layer.settleAll host n target.signature.ret args layers) >>= Exec.ofExcept :=
    (bind_assoc _ _ _).symm
  rw [invoked, folded, Exec.kept_ofExcept, ← outcome, ← Exec.kept_ofExcept,
    Exec.attempt_bind_ofExcept]

/-- A host whose functions 0 and 1 throw and whose other functions return 7. -/
def Host.throwing : Host := fun f _ =>
  if f.id < 2 then .throwing .arithmetic (toString f.id) else .value (.int 7)

/-- A handler of what a cleanup throws, around the cleanup of a function that throws as well. -/
def Layer.bothThrow : List Layer :=
  [.finishing (.ofHost 1 ⟨.prim .int, [.throwable, .prim .int]⟩),
    .catching (.cls .arithmetic) (.ofHost 2 ⟨.prim .int, [.throwable]⟩)]

theorem Handle.invokeExact_layers_bothThrow :
    let target := Handle.ofHost 0 ⟨.prim .int, []⟩
    ∃ h t, target.Layered Layer.bothThrow h ∧ Conform [] target.signature.params ∧
      h.invokeExact (runCode .throwing 6) [] .empty = (.ok (.int 7), t) ∧
      t.suppressed = #[[], [⟨0, .arithmetic, "0"⟩]] ∧
      (target.signature.ret.kept <$> (do
        let first ← ((runCode .throwing 4).call target []).attempt
        let last ← Layer.settleAll .throwing 4 target.signature.ret [] Layer.bothThrow first
        Exec.ofExcept last)) .empty = (.ok (.int 7), t) := by
  have inner : (Handle.ofHost 0 ⟨.prim .int, []⟩).Layered
      [.finishing (.ofHost 1 ⟨.prim .int, [.throwable, .prim .int]⟩)] _ :=
    @Handle.Layered.wrap _ _ _ _ .empty _ _ .bare rfl
  have layered : (Handle.ofHost 0 ⟨.prim .int, []⟩).Layered Layer.bothThrow _ :=
    @Handle.Layered.wrap _ _ _ _ .empty _ _ inner rfl
  have folded := congrFun (Handle.invokeExact_layers layered .nil .throwing 4) .empty
  exact ⟨_, _, layered, .nil, rfl, rfl, folded.symm.trans rfl⟩

end TypedHandles
