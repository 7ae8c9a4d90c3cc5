import TypedHandles.Proofs.Adapting
import TypedHandles.Proofs.History

/-!
Calls through another signature, after some arguments were captured. `Handle.through` says what
such a call comes to: the arguments that are still to come are converted, the handle is called on
what was captured and on them, and its result is converted.

A handle that is bound to what it captured and then adapted does just that; where its program is
read at the other signature as it stands, the conversions would change nothing.
-/
namespace TypedHandles

variable {F : ClassLibrary} {K : Known}

/-- A call of a handle on captured values and on arguments of another signature. -/
def Handle.through (run : Runner) (h : Handle) (captured : List Value) (caller : Signature)
    (args : List Value) : Exec Value := do
  let supplied ← Exec.ofExcept
    (Value.convertAll (args.zip (caller.params.zip (h.signature.paramsFrom captured.length))))
  let result ← run.call h (captured ++ supplied)
  Exec.ofExcept (result.convert h.signature.ret caller.ret)

/-- Whatever a computation returns from this state is of a kind, over given classes. -/
def Exec.Yields (F : ClassLibrary) (x : Exec Value) (k : Kind) (s : State) : Prop :=
  ∀ v t, x s = (.ok v, t) → v.Over F.Has ∧ v.conforms k = true

/-! Values that need no conversion, and values that were converted. -/

theorem Kind.kept_of_conforms {k : Kind} {v : Value} (conforms : v.conforms k = true) :
    k.kept v = v := by
  cases k with
  | prim | ref => rfl
  | void =>
    cases v with
    | void => rfl
    | null | bool | byte | short | char | int | long | float | double | str | array | object
    | throwable | handle | signature | callSite => cases conforms

theorem Exec.bind_kept {x : Exec Value} {k : Kind} {s : State} (yields : x.Yields F k s) :
    (do
      let v ← x
      return k.kept v) s = x s := by
  match result : x s with
  | (.ok v, t) =>
    rw [bind_of_ok result, Kind.kept_of_conforms (yields v t result).2]
    rfl
  | (.error e, t) => rw [bind_of_error result]

/-- A handle at hand returns what its signature says. -/
theorem Handle.call_yields {host : Host} {s : State} {h : Handle} {args : List Value}
    (uses : host.Uses F K) (sound : s.Sound F K) (known : K (.handle h))
    (fits : Fits F K args h.signature.params) (n : Nat) :
    ((runCode host n).call h args).Yields F h.signature.ret s := by
  intro v t done
  obtain ⟨-, K', -, sound', ends⟩ := (runCode_agree uses n).call known fits s sound
  rw [done] at ends
  exact ⟨Value.over_of_madeOf sound'.knowledge ends.1, ends.2⟩

namespace Value

/-- A value of a kind is fitted to it as it is. -/
theorem coerce_of_conforms {v : Value} {k : Kind} (nonVoid : k ≠ .void)
    (conforms : v.conforms k = true) : v.coerce k = .ok v := by
  match k with
  | .void => exact absurd rfl nonVoid
  | .prim p =>
    have prim := conforms_prim_iff.1 conforms
    simp [coerce, unbox, prim, p.widensTo_refl, widen_self prim]
  | .ref t =>
    unfold coerce
    cases prim : v.prim? with
    | none => exact checkCast_of_conforms conforms
    | some p =>
      have below := (conforms_ref_of_prim? prim).1 conforms
      have target : p.boxTarget? t = some p := if_pos below
      simp only [target, widen_self prim]

theorem mapM_coerce_of_conform {vs : List Value} {ks : List Kind} (nonVoid : ∀ k ∈ ks, k ≠ .void)
    (conform : Conform vs ks) : (vs.zip ks).mapM (fun (v, k) => v.coerce k) = .ok vs := by
  induction conform with
  | nil => rfl
  | cons here _ ih =>
    obtain ⟨first, rest⟩ := List.forall_mem_cons.1 nonVoid
    rw [List.zip_cons_cons, List.mapM_cons, ih rest]
    dsimp only
    rw [coerce_of_conforms first here]
    rfl

/-- Nothing is done to a value that is read at a kind above its own. -/
theorem convert_of_isViewableAs {v : Value} {k l : Kind} (hv : v.Over F.Has)
    (hk : k.Over F.Has) (hl : l.Over F.Has) (view : k.isViewableAs l true = true)
    (conforms : v.conforms k = true) : v.convert k l = .ok v := by
  have reaches := conforms_of_isViewableAs hv hk hl view conforms
  unfold convert
  split
  · rfl
  · next differ =>
    obtain ⟨s, t, rfl, rfl, -⟩ := (Kind.isViewableAs_strict_iff.1 view).resolve_left differ
    exact checkCast_of_conforms reaches

theorem convertAll_cons (v : Value) (source target : Kind) (items : List (Value × Kind × Kind)) :
    convertAll ((v, source, target) :: items) = (do
      let w ← v.convert source target
      let results ← convertAll items
      return w :: results) :=
  List.mapM_cons

variable {vs ws : List Value} {ks ls : List Kind}

theorem convertAll_of_views (fits : Fits F K vs ks) (knowledge : Knowledge F K)
    (hk : ∀ k ∈ ks, k.Over F.Has) (hl : ∀ l ∈ ls, l.Over F.Has)
    (views : List.Forall₂ (fun k l => Kind.isViewableAs k l true = true) ks ls) :
    convertAll (vs.zip (ks.zip ls)) = .ok vs := by
  obtain ⟨conform, made⟩ := fits
  induction conform generalizing ls with
  | nil => rfl
  | cons here _ ih =>
    cases views with
    | cons view views =>
      obtain ⟨first, hk⟩ := List.forall_mem_cons.1 hk
      obtain ⟨second, hl⟩ := List.forall_mem_cons.1 hl
      obtain ⟨known, made⟩ := List.forall_mem_cons.1 made
      have hv := over_of_madeOf knowledge known
      rw [List.zip_cons_cons, List.zip_cons_cons, convertAll_cons,
        convert_of_isViewableAs hv first second view here, ih hk hl views made]
      rfl

/-- What was converted is of the kinds that it was converted to. -/
theorem fits_of_convertAll (fits : Fits F K vs ks) (hk : ∀ k ∈ ks, k.Over F.Has)
    (hl : ∀ l ∈ ls, l.Over F.Has) (lengths : ks.length = ls.length)
    (done : convertAll (vs.zip (ks.zip ls)) = .ok ws) : Fits F K ws ls := by
  obtain ⟨conform, made⟩ := fits
  induction conform generalizing ls ws with
  | nil =>
    cases List.length_eq_zero_iff.1 lengths.symm
    cases done
    exact .nil
  | @cons v k vs ks here _ ih =>
    cases ls with
    | nil => cases lengths
    | cons l ls =>
      obtain ⟨first, hk⟩ := List.forall_mem_cons.1 hk
      obtain ⟨second, hl⟩ := List.forall_mem_cons.1 hl
      obtain ⟨known, made⟩ := List.forall_mem_cons.1 made
      rw [List.zip_cons_cons, List.zip_cons_cons, convertAll_cons] at done
      cases converted : v.convert k l with
      | error failure =>
        rw [converted] at done
        cases done
      | ok w =>
        cases others : convertAll (vs.zip (ks.zip ls)) with
        | error failure =>
          rw [converted, others] at done
          cases done
        | ok rest =>
          rw [converted, others] at done
          cases done
          exact (ih hk hl (Nat.succ.inj lengths) others made).cons
            (madeOf_of_convert known converted) (conforms_of_convert first second here converted)

end Value

/-! Adapters. -/

namespace Handle

variable {h : Handle} {caller : Signature} {args : List Value} {s : State}

/-- How many calls the code that serves a caller makes on the way to the handle's program. -/
def layersFor (h : Handle) (caller : Signature) : Nat := if h.servesAsIs caller then 0 else 1

theorem runCode_codeFor_of_asIs (asIs : h.servesAsIs caller = true)
    (lengths : args.length = caller.arity) (arity : caller.arity = h.arity) (host : Host)
    (n : Nat) :
    runCode host n (h.codeFor caller) args = (runCode host n).call h args := by
  cases n with
  | zero => rfl
  | succ n => rw [runCode_codeFor_eq lengths arity, if_pos asIs]

section

variable {host : Host} {n : Nat}

/-- Where the program is read as it stands, the conversions would change nothing. -/
theorem through_of_asIs (knowledge : Knowledge F K) (own : h.signature.Valid F.Has)
    (valid : caller.Valid F.Has) (asIs : h.servesAsIs caller = true)
    (fits : Fits F K args caller.params)
    (yields : ∀ values, Fits F K values h.signature.params →
      ((runCode host n).call h values).Yields F h.signature.ret s) :
    h.through (runCode host n) [] caller args s = (runCode host n).call h args s := by
  obtain ⟨params, ret⟩ := views_of_servesAsIs asIs
  have unchanged := Value.convertAll_of_views fits knowledge valid.params_over own.params_over
    params
  have fits' : Fits F K args h.signature.params := Value.fits_of_convertAll fits
    valid.params_over own.params_over params.length_eq unchanged
  have whole : h.signature.paramsFrom 0 = h.signature.params := rfl
  unfold through
  rw [List.length_nil, whole, unchanged, show Exec.ofExcept (.ok args) = pure args from rfl,
    pure_bind, List.nil_append]
  match result : (runCode host n).call h args s with
  | (.error e, t) => rw [bind_of_error result]
  | (.ok v, t) =>
    obtain ⟨hv, conforms⟩ := yields args fits' v t result
    rw [bind_of_ok result,
      Value.convert_of_isViewableAs hv own.ret_over valid.ret_over ret conforms]
    rfl

/-- An adapter does what a call through its signature does. -/
theorem runCode_converting (own : h.signature.Valid F.Has) (valid : caller.Valid F.Has)
    (arity : caller.arity = h.arity) (fits : Fits F K args caller.params)
    (yields : ∀ values, Fits F K values h.signature.params →
      ((runCode host n).call h values).Yields F h.signature.ret s) :
    runCode host (n + 1) (.program caller (Blueprint.converting h caller).program) args s =
      h.through (runCode host n) [] caller args s := by
  have whole : h.signature.paramsFrom 0 = h.signature.params := rfl
  show (Blueprint.converting h caller).program.perform (runCode host n) n args s = _
  unfold through
  rw [List.length_nil, whole, Blueprint.converting_perform fits.conform.length_eq arity]
  cases supplied : Value.convertAll (args.zip (caller.params.zip h.signature.params)) with
  | error failure => rfl
  | ok values =>
    have fits' : Fits F K values h.signature.params := Value.fits_of_convertAll fits
      valid.params_over own.params_over arity supplied
    rw [show Exec.ofExcept (.ok values) = pure values from rfl, pure_bind, pure_bind,
      List.nil_append]
    match result : (runCode host n).call h values s with
    | (.error e, t) => rw [bind_of_error result, bind_of_error result]
    | (.ok v, t) =>
      obtain ⟨-, conforms⟩ := yields values fits' v t result
      rw [bind_of_ok result, bind_of_ok result]
      cases converted : v.convert h.signature.ret caller.ret with
      | error failure => rfl
      | ok w =>
        have reaches := Value.conforms_of_convert own.ret_over valid.ret_over conforms converted
        show (Except.ok (caller.ret.kept w), t) = _
        rw [Kind.kept_of_conforms reaches]
        rfl

/-- A caller that the handle's own program does not serve is served by the adapter. -/
theorem codeFor_of_adapted (adapted : h.servesAsIs caller = false) :
    h.codeFor caller = .program caller (Blueprint.converting h caller).program := by
  obtain ⟨differ, notViewable⟩ := Bool.or_eq_false_iff.1 adapted
  unfold codeFor Blueprint.adapting
  rw [differ, notViewable]
  rfl

/-- The code that serves a caller does what a call through the caller's signature does. -/
theorem runCode_codeFor_through (knowledge : Knowledge F K) (own : h.signature.Valid F.Has)
    (valid : caller.Valid F.Has) (arity : caller.arity = h.arity)
    (fits : Fits F K args caller.params)
    (yields : ∀ values, Fits F K values h.signature.params →
      ((runCode host n).call h values).Yields F h.signature.ret s) :
    runCode host (n + h.layersFor caller) (h.codeFor caller) args s =
      h.through (runCode host n) [] caller args s := by
  unfold layersFor
  cases asIs : h.servesAsIs caller with
  | true =>
    show runCode host n (h.codeFor caller) args s = _
    rw [runCode_codeFor_of_asIs asIs fits.conform.length_eq arity,
      through_of_asIs knowledge own valid asIs fits yields]
  | false =>
    rw [codeFor_of_adapted asIs]
    exact runCode_converting own valid arity fits yields

end

end Handle

/-! Captured arguments. -/

namespace Program

/-- Constants are laid out in slots of their own. -/
theorem computes_constants (run : Runner) (limit : Nat) (frame : List Value) {kinds : List Kind}
    {values : List Value} (lengths : kinds.length = values.length) :
    Computes run limit frame ((kinds.zip values).map fun (kind, v) => ⟨kind, .const v⟩)
      (slots frame.length (frame.length + values.length)) (.ok values) := by
  refine ⟨values, by simp [lengths], ?_, ?_⟩
  · induction values generalizing frame kinds with
    | nil => simp [fill]
    | cons v values ih =>
      cases kinds with
      | nil => cases lengths
      | cons kind kinds =>
        have rest := ih (frame ++ [v]) (Nat.succ.inj lengths)
        rw [List.append_assoc] at rest
        exact rest
  · have carries : Carries (frame ++ values)
        (slots frame.length (frame.length + values.length)) _ := Carries.slots (by simp)
    simpa using carries

end Program

namespace Blueprint

/-- A handle that was bound to values of its leading parameters. -/
def capturing (h : Handle) (captured : List Value) : Blueprint :=
  let rest := h.signature.paramsFrom captured.length
  let constants : List Binding := ((h.signature.params.take captured.length).zip captured).map
    fun (kind, v) => ⟨kind, .const v⟩
  ⟨⟨h.signature.ret, rest⟩, .calling rest.length constants h
    (Program.slots rest.length (rest.length + captured.length) ++ Program.slots 0 rest.length)⟩

variable {h : Handle} {captured : List Value}

/-- Values of the leading parameters are bound as they are. -/
theorem insertArguments_eq (valid : h.signature.WellFormed)
    (leads : captured.length ≤ h.arity)
    (conform : Conform captured (h.signature.params.take captured.length)) :
    insertArguments h 0 captured = .ok (capturing h captured) := by
  have inside : captured.length ≤ h.signature.params.length := leads
  have positions : requirePositions h.signature 0 captured.length = .ok () := by
    unfold requirePositions Signature.arity
    rw [if_neg (by omega)]
  have kinds : slice? h.signature.params 0 (0 + captured.length) =
      some (h.signature.params.take captured.length) := by
    simp [slice?, inside]
  have fitted := Value.mapM_coerce_of_conform
    (fun k mem => valid.no_void k (List.mem_of_mem_take mem)) conform
  have rest : h.signature.dropParams 0 (0 + captured.length) =
      .ok ⟨h.signature.ret, h.signature.paramsFrom captured.length⟩ := by
    rw [Nat.zero_add]
    exact valid.dropParams (Nat.zero_le _) inside
  unfold insertArguments
  dsimp only
  rw [positions, kinds]
  show (Checked.ofExcept ((captured.zip (h.signature.params.take captured.length)).mapM
    fun (v, kind) => v.coerce kind) >>= _) = _
  rw [fitted]
  show (Checked.ofExcept (h.signature.dropParams 0 (0 + captured.length)) >>= _) = _
  rw [rest]
  rfl

/-- A bound handle is called on what it captured and on what it is called on. -/
theorem capturing_perform (run : Runner) (limit : Nat) {args : List Value}
    (leads : captured.length ≤ h.arity)
    (lengths : args.length = (capturing h captured).signature.arity) :
    (capturing h captured).program.perform run limit args = (do
      let result ← run.call h (captured ++ args)
      return h.signature.ret.kept result) := by
  have count : (h.signature.params.take captured.length).length = captured.length :=
    List.length_take_of_le leads
  have rest : (h.signature.paramsFrom captured.length).length = args.length := lengths.symm
  obtain ⟨more, length, filled, carries⟩ :=
    Program.computes_constants run limit args count
  have own : Carries args (Program.slots 0 args.length) args := by
    have all : Carries args (Program.slots 0 args.length) _ := Carries.slots (Nat.le_refl _)
    rwa [Nat.sub_zero, List.drop_zero, List.take_length] at all
  have computes : Program.Computes run limit args _ _ (.ok (captured ++ args)) :=
    ⟨more, length, filled, List.rel_append carries (own.weaken more)⟩
  unfold capturing
  dsimp only
  rw [rest]
  exact Program.calling_perform computes h

end Blueprint

namespace Handle

/-- A new handle that is bound to values of its leading parameters. -/
def boundTo (h : Handle) (captured : List Value) (id : Nat) : Handle :=
  ⟨id, (Blueprint.capturing h captured).signature, (Blueprint.capturing h captured).program, false⟩

variable {h : Handle} {captured args : List Value} {caller : Signature} {s : State} {host : Host}

theorem boundTo_valid (valid : h.signature.Valid F.Has) (captured : List Value) (id : Nat) :
    (h.boundTo captured id).signature.Valid F.Has where
  wellFormed := {
    arity_le := Nat.le_trans (List.length_drop ▸ Nat.sub_le _ _) valid.wellFormed.arity_le
    no_void := fun k mem => valid.wellFormed.no_void k (List.mem_of_mem_drop mem) }
  ret_over := valid.ret_over
  params_over := fun k mem => valid.params_over k (List.mem_of_mem_drop mem)

theorem boundTo_call {n id : Nat} (leads : captured.length ≤ h.arity)
    (lengths : args.length = (h.boundTo captured id).arity)
    (yields : ((runCode host n).call h (captured ++ args)).Yields F h.signature.ret s) :
    (runCode host (n + 1)).call (h.boundTo captured id) args s =
      (runCode host n).call h (captured ++ args) s := by
  rw [← Exec.bind_kept yields]
  exact congrFun (Blueprint.capturing_perform (runCode host n) n leads lengths) s

/-- The code that serves a caller of a bound handle calls the handle through the caller's signature,
on what it captured and on the arguments. -/
theorem runCode_codeFor_boundTo {n id : Nat} (knowledge : Knowledge F K)
    (own : h.signature.Valid F.Has) (valid : caller.Valid F.Has) (leads : captured.length ≤ h.arity)
    (arity : caller.arity = (h.boundTo captured id).arity)
    (fits : Fits F K args caller.params)
    (yields : ∀ values, Fits F K values (h.signature.paramsFrom captured.length) →
      ((runCode host n).call h (captured ++ values)).Yields F h.signature.ret s) :
    runCode host (n + 1 + (h.boundTo captured id).layersFor caller)
        ((h.boundTo captured id).codeFor caller) args s =
      h.through (runCode host n) captured caller args s := by
  have called : ∀ values, Fits F K values (h.signature.paramsFrom captured.length) →
      (runCode host (n + 1)).call (h.boundTo captured id) values s =
        (runCode host n).call h (captured ++ values) s :=
    fun values fits => boundTo_call leads fits.conform.length_eq (yields values fits)
  rw [runCode_codeFor_through knowledge (boundTo_valid own captured id) valid arity fits
    fun values fits v t done => yields values fits v t ((called values fits).symm.trans done)]
  unfold through
  rw [List.length_nil]
  show (Exec.ofExcept (Value.convertAll
    (args.zip (caller.params.zip (h.signature.paramsFrom captured.length)))) >>= _) s = _
  cases supplied : Value.convertAll
      (args.zip (caller.params.zip (h.signature.paramsFrom captured.length))) with
  | error failure => rfl
  | ok values =>
    have fits' : Fits F K values (h.signature.paramsFrom captured.length) :=
      Value.fits_of_convertAll fits valid.params_over
        (fun k mem => own.params_over k (List.mem_of_mem_drop mem)) arity supplied
    exact bind_congr_at (called values fits')

end Handle
end TypedHandles
