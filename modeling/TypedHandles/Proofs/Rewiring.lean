import TypedHandles.Proofs.IteratedLoops
import TypedHandles.Proofs.LooseCalls

/-!
Adapters that only rewire arguments. Each is characterised by when it is accepted, by its signature,
and by what it makes of its arguments before it runs its handle: the equations of `Handle.Rewires`.
Everything else follows from these equations, because they compose.

An adapter runs its handle one level below, so adapters that do the same may do so at different
depths. They are compared by what they come to (`Handle.Alike`).
-/
namespace TypedHandles

/-! Handles that do the same. -/

namespace Handle

/-- The program of a handle has a result if its signature has one. -/
def KeepsResult (h : Handle) : Prop := h.program.result.isNone = h.signature.ret.isVoid

/-- Handles of one signature that do the same on all arguments, however deep either of them runs. -/
structure Alike (a b : Handle) : Prop where
  signature : a.signature = b.signature
  comesTo : ∀ (host : Host) (args : List Value),
    host.comesTo (a.invokeExact · args) = host.comesTo (b.invokeExact · args)

/-- A handle that runs another one, some levels below, on arguments that it makes of its own. -/
structure Rewires (d h : Handle) (wire : List Value → List Value) : Prop where
  conform : ∀ args, Conform args d.signature.params → Conform (wire args) h.signature.params
  runs : ∃ levels, ∀ (host : Host) (n : Nat) (args : List Value),
    Conform args d.signature.params →
      d.invokeExact (runCode host (n + levels)) args = h.invokeExact (runCode host n) (wire args)

variable {a b d e h : Handle} {wire wire' : List Value → List Value}

/-- What users hold is as the constructions make it. -/
theorem wellFormed_of_attained {point : Nat → UInt64 → Signature → Prop} {values : List Value}
    {s : State} (attained : Attained point values s) (held : Among values (.handle h)) :
    h.signature.WellFormed ∧ h.KeepsResult := by
  obtain ⟨σ, -, -, -, offered⟩ := attained.inWorld
  have fits := (σ.scope_complete.handle_iff h).1 (offered.handle h held)
  exact ⟨fits.blueprint.wellFormed, fits.blueprint.program.result_isNone⟩

theorem checkArguments_congr (same : a.signature = b.signature) (args : List Value) :
    a.checkArguments args = b.checkArguments args := by
  unfold checkArguments arity
  rw [same]

/-- Other arguments than those of the parameters are refused alike. -/
theorem Alike.of_conform (same : a.signature = b.signature)
    (alike : ∀ (host : Host) (args : List Value), Conform args b.signature.params →
      host.comesTo (a.invokeExact · args) = host.comesTo (b.invokeExact · args)) : a.Alike b := by
  refine ⟨same, fun host args => ?_⟩
  by_cases conform : Conform args b.signature.params
  · exact alike host args conform
  · obtain ⟨failure, refused, -⟩ := b.invokeExact_of_not_conform conform (runCode host 0)
    have refused' := (checkArguments_congr same args).trans refused
    unfold invokeExact
    rw [refused, refused']
    rfl

/-! Rewiring. -/

namespace Rewires

theorem refl (h : Handle) : h.Rewires h fun args => args :=
  ⟨fun _ conform => conform, 0, fun _ _ _ _ => rfl⟩

/-- Rewirings compose, the outer one first. -/
theorem trans (outer : e.Rewires d wire) (inner : d.Rewires h wire') :
    e.Rewires h fun args => wire' (wire args) := by
  obtain ⟨levels, outer_runs⟩ := outer.runs
  obtain ⟨levels', inner_runs⟩ := inner.runs
  refine ⟨fun args conform => inner.conform _ (outer.conform args conform),
    levels' + levels, fun host n args conform => ?_⟩
  rw [← Nat.add_assoc, outer_runs host (n + levels') args conform,
    inner_runs host n _ (outer.conform args conform)]

/-- Only what is made of conforming arguments counts. -/
theorem congr (rewires : d.Rewires h wire)
    (same : ∀ args, Conform args d.signature.params → wire args = wire' args) :
    d.Rewires h wire' := by
  obtain ⟨levels, runs⟩ := rewires.runs
  refine ⟨fun args conform => ?_, levels, fun host n args conform => ?_⟩
  · rw [← same args conform]
    exact rewires.conform args conform
  · rw [← same args conform]
    exact runs host n args conform

/-- The levels in between make no difference. -/
theorem comesTo (rewires : d.Rewires h wire) (host : Host) {args : List Value}
    (conform : Conform args d.signature.params) :
    host.comesTo (d.invokeExact · args) = host.comesTo (h.invokeExact · (wire args)) := by
  obtain ⟨levels, runs⟩ := rewires.runs
  refine (Exec.comesTo_add (fun n => d.invokeExact (runCode host n) args) levels).symm.trans ?_
  exact congrArg Exec.ComesTo (funext fun n => runs host n args conform)

/-- Two handles that make the same of their arguments for one handle do the same. -/
theorem alike (first : d.Rewires h wire) (second : e.Rewires h wire')
    (signature : d.signature = e.signature)
    (same : ∀ args, Conform args e.signature.params → wire args = wire' args) : d.Alike e := by
  refine .of_conform signature fun host args conform => ?_
  rw [first.comesTo host (signature ▸ conform), second.comesTo host conform, same args conform]

/-- An adapter whose program calls its handle, one level below. -/
theorem of_call
    (conform : ∀ args, Conform args d.signature.params → Conform (wire args) h.signature.params)
    (calls : ∀ (host : Host) (n : Nat) (args : List Value), args.length = d.arity →
      Conform args d.signature.params →
      (runCode host (n + 1)).call d args = (runCode host n).call h (wire args)) :
    d.Rewires h wire := by
  refine ⟨conform, 1, fun host n args conforms => ?_⟩
  rw [d.invokeExact_of_conform _ conforms, h.invokeExact_of_conform _ (conform args conforms)]
  exact calls host n args conforms.length_eq conforms

end Rewires
end Handle

/-! What the program of an adapter passes to its handle. -/

theorem Carries.take {args : List Value} {pos : Nat} (inside : pos ≤ args.length) :
    Carries args (Program.slots 0 pos) (args.take pos) := by
  have carries : Carries args (Program.slots 0 pos) _ := Carries.slots inside
  simpa using carries

theorem Carries.drop (args : List Value) (pos : Nat) :
    Carries args (Program.slots pos args.length) (args.drop pos) := by
  have carries : Carries args (Program.slots pos args.length) _ := Carries.slots (Nat.le_refl _)
  rwa [List.take_of_length_le (by simp)] at carries

/-- Computed values between arguments of the frame. -/
theorem Program.Computes.between {run : Runner} {limit : Nat} {frame values vs ws : List Value}
    {before : List Binding} {slots first last : List Slot}
    (computes : Computes run limit frame before slots (.ok values)) (front : Carries frame first vs)
    (back : Carries frame last ws) :
    Computes run limit frame before (first ++ slots ++ last) (.ok (vs ++ values ++ ws)) := by
  obtain ⟨more, length, filled, carries⟩ := computes
  refine ⟨more, length, filled, ?_⟩
  exact List.rel_append (List.rel_append (front.weaken more) carries) (back.weaken more)

/-- An adapter that computes what it passes to its handle, and returns what the handle returns. -/
theorem Handle.call_of_computes {d h : Handle} {before : List Binding} {slots : List Slot}
    {args values : List Value} (keeps : h.KeepsResult)
    (program : d.program = .calling d.arity before h slots) (lengths : args.length = d.arity)
    (computes : ∀ run limit, Program.Computes run limit args before slots (.ok values))
    (host : Host) (n : Nat) :
    (runCode host (n + 1)).call d args = (runCode host n).call h values := by
  show d.program.perform (runCode host n) n args = _
  rw [program, ← lengths, Program.calling_perform (computes _ _) h]
  exact h.call_kept keeps host n values

/-- An adapter keeps results if its handle has one when it has. -/
theorem Handle.keepsResult_of_calling {d h : Handle} {arity : Nat} {before : List Binding}
    {slots : List Slot} (program : d.program = .calling arity before h slots)
    (ret : h.signature.ret.isVoid = d.signature.ret.isVoid) : d.KeepsResult := by
  unfold KeepsResult
  rw [program, ← ret]
  exact resultSlot_isNone _ _

/-! Values of two lists of kinds, one after the other. -/

theorem Conform.take {args : List Value} {ks ls : List Kind} {count : Nat}
    (conform : Conform args (ks ++ ls)) (lengths : ks.length = count) :
    Conform (args.take count) ks := by
  have taken := List.forall₂_take count conform
  rwa [List.take_left' lengths] at taken

theorem Conform.drop {args : List Value} {ks ls : List Kind} {count : Nat}
    (conform : Conform args (ks ++ ls)) (lengths : ks.length = count) :
    Conform (args.drop count) ls := by
  have dropped := List.forall₂_drop count conform
  rwa [List.drop_left' lengths] at dropped

/-! Inserted values. -/

namespace Value

/-- Kinds beyond the values are not looked at. -/
theorem coerceAll_zip_take (values : List Value) (kinds : List Kind) :
    coerceAll (values.zip (kinds.take values.length)) = coerceAll (values.zip kinds) := by
  refine congrArg coerceAll (List.ext_getElem (by simp) fun i _ _ => ?_)
  simp

end Value

namespace Blueprint

/-- A handle with parameters from `pos` on bound to values. -/
def inserting (h : Handle) (pos : Nat) (bound : List Value) : Blueprint :=
  let own := h.signature
  let rest : Signature := ⟨own.ret, own.params.take pos ++ own.params.drop (pos + bound.length)⟩
  let kinds := (own.params.drop pos).take bound.length
  let constants : List Binding := (kinds.zip bound).map fun (kind, v) => ⟨kind, .const v⟩
  ⟨rest, .calling rest.arity constants h (Program.slots 0 pos ++
    Program.slots rest.arity (rest.arity + bound.length) ++ Program.slots pos rest.arity)⟩

variable {h : Handle} {pos : Nat} {values : List Value}

theorem insertArguments_of_inside (wf : h.signature.WellFormed)
    (inside : pos + values.length ≤ h.arity) :
    insertArguments h pos values =
      Checked.ofExcept (Value.coerceAll (values.zip (h.signature.paramsFrom pos))) >>=
        fun bound => .ok (inserting h pos bound) := by
  have within : pos + values.length ≤ h.signature.params.length := inside
  have positions : requirePositions h.signature pos values.length = .ok () := by
    unfold requirePositions Signature.arity
    rw [if_neg (by omega)]
  have kinds : slice? h.signature.params pos (pos + values.length) =
      some ((h.signature.params.drop pos).take values.length) := by
    unfold slice?
    rw [if_pos ⟨Nat.le_add_right _ _, within⟩, Nat.add_sub_cancel_left]
  have count : ((h.signature.params.drop pos).take values.length).length = values.length := by
    simp only [List.length_take, List.length_drop]
    omega
  have fitted := Value.coerceAll_zip_take values (h.signature.paramsFrom pos)
  unfold insertArguments
  dsimp only
  rw [positions, kinds]
  show (Checked.ofExcept (Value.coerceAll (values.zip ((h.signature.paramsFrom pos).take
    values.length))) >>= _) = _
  rw [fitted]
  cases done : Value.coerceAll (values.zip (h.signature.paramsFrom pos)) with
  | error failure => rfl
  | ok bound =>
    have bound_count : bound.length = values.length :=
      ((Value.conform_of_coerceAll count.symm (fitted.trans done)).length_eq).trans count
    show (Checked.ofExcept (h.signature.dropParams pos (pos + bound.length)) >>= _) = _
    rw [bound_count, wf.dropParams (Nat.le_add_right _ _) inside]
    show _ = (Except.ok (inserting h pos bound) : Checked Blueprint)
    unfold inserting
    rw [bound_count]
    rfl

theorem insertArguments_of_outside (outside : ¬ pos + values.length ≤ h.arity) :
    ∃ failure, insertArguments h pos values = .error (.failed failure) := by
  have outside : ¬ pos + values.length ≤ h.signature.arity := outside
  have positions : requirePositions h.signature pos values.length =
      Checked.refuse (.illegalArgument (.positions values.length pos h.signature)) := by
    unfold requirePositions
    rw [if_pos (by omega)]
  unfold insertArguments
  dsimp only
  rw [positions]
  exact ⟨_, rfl⟩

end Blueprint

namespace Handle

variable {h d : Handle} {t u : HandleTable} {pos : Nat} {values bound : List Value}

/-- Values are inserted if there are parameters for them, and each fits its own. -/
theorem insertArguments_build_iff (wf : h.signature.WellFormed) (t : HandleTable) :
    (∃ d u, (Construction.insertArguments h pos values).build t = (.ok d, u)) ↔
      pos + values.length ≤ h.arity ∧
        ∃ bound, Value.coerceAll (values.zip (h.signature.paramsFrom pos)) = .ok bound := by
  unfold Construction.build Build.allocate
  dsimp only
  by_cases inside : pos + values.length ≤ h.arity
  · rw [Blueprint.insertArguments_of_inside wf inside]
    cases Value.coerceAll (values.zip (h.signature.paramsFrom pos)) with
    | error failure =>
      refine ⟨fun ⟨_, _, made⟩ => ?_, fun ⟨_, _, done⟩ => ?_⟩
      · cases made
      · cases done
    | ok bound => exact ⟨fun _ => ⟨inside, bound, rfl⟩, fun _ => ⟨_, _, rfl⟩⟩
  · obtain ⟨failure, refused⟩ :=
      @Blueprint.insertArguments_of_outside h pos values inside
    rw [refused]
    refine ⟨fun ⟨_, _, made⟩ => ?_, fun ⟨here, _⟩ => absurd here inside⟩
    cases made

/-- What is made when values are inserted. -/
theorem insertArguments_eq_ok (wf : h.signature.WellFormed)
    (made : (Construction.insertArguments h pos values).build t = (.ok d, u))
    (done : Value.coerceAll (values.zip (h.signature.paramsFrom pos)) = .ok bound) :
    let kinds := (h.signature.params.drop pos).take bound.length
    pos + bound.length ≤ h.arity ∧ bound.length = values.length ∧ Conform bound kinds ∧
      d.signature = ⟨h.signature.ret, h.signature.params.take pos ++
        h.signature.params.drop (pos + bound.length)⟩ ∧
      d.program = .calling d.arity ((kinds.zip bound).map fun (kind, v) => ⟨kind, .const v⟩) h
        (Program.slots 0 pos ++ Program.slots d.arity (d.arity + bound.length) ++
          Program.slots pos d.arity) := by
  obtain ⟨inside, -⟩ := (insertArguments_build_iff wf t).1 ⟨d, u, made⟩
  have within : pos + values.length ≤ h.signature.params.length := inside
  have count : ((h.signature.params.drop pos).take values.length).length = values.length := by
    simp only [List.length_take, List.length_drop]
    omega
  have fits : Conform bound ((h.signature.params.drop pos).take values.length) :=
    Value.conform_of_coerceAll count.symm
      ((Value.coerceAll_zip_take values (h.signature.paramsFrom pos)).trans done)
  have bound_count : bound.length = values.length := fits.length_eq.trans count
  have accepted : Ends Halt.IsStatic (· = Blueprint.inserting h pos bound)
      (Blueprint.insertArguments h pos values) := by
    rw [Blueprint.insertArguments_of_inside wf inside, done]
    rfl
  have inserted := Build.of_allocate accepted made
  obtain ⟨id, signature, program, variableArity⟩ := d
  cases inserted
  rw [bound_count]
  exact ⟨inside, rfl, fits, rfl, bound_count ▸ rfl⟩

/-- Inserted values stand between the arguments when the handle runs. -/
theorem insertArguments_rewires (wf : h.signature.WellFormed) (keeps : h.KeepsResult)
    (made : (Construction.insertArguments h pos values).build t = (.ok d, u))
    (done : Value.coerceAll (values.zip (h.signature.paramsFrom pos)) = .ok bound) :
    d.signature = ⟨h.signature.ret, h.signature.params.take pos ++
        h.signature.params.drop (pos + values.length)⟩ ∧
      d.Rewires h fun args => args.take pos ++ bound ++ args.drop pos := by
  obtain ⟨inside, count, fits, signature, program⟩ := insertArguments_eq_ok wf made done
  have within : pos + bound.length ≤ h.signature.params.length := inside
  have front : (h.signature.params.take pos).length = pos := List.length_take_of_le (by omega)
  refine ⟨count ▸ signature, .of_call (fun args conform => ?_) fun host n args lengths _ => ?_⟩
  · -- The parameters are the ones that stay, with the bound ones between them.
    have split : h.signature.params = h.signature.params.take pos ++
        (h.signature.params.drop pos).take bound.length ++
          h.signature.params.drop (pos + bound.length) := by
      rw [List.append_assoc, ← List.drop_drop, List.take_append_drop, List.take_append_drop]
    rw [signature] at conform
    rw [split]
    exact List.rel_append (List.rel_append (conform.take front) fits) (conform.drop front)
  · have enough : pos ≤ args.length := by
      rw [lengths, arity, signature, List.length_append, front]
      exact Nat.le_add_right _ _
    refine call_of_computes keeps program lengths (fun run limit => ?_) host n
    have constants := Program.computes_constants run limit args fits.length_eq.symm
    rw [← lengths]
    exact constants.between (.take enough) (.drop args pos)

/-! Ignored parameters. -/

section

variable {kinds : List Kind}

/-- What is made when parameters are added. With none to add it is the handle itself. -/
theorem dropArguments_eq_ok (made : h.dropArguments pos kinds t = (.ok d, u)) :
    pos ≤ h.arity ∧ ((kinds = [] ∧ d = h) ∨
      d.signature.WellFormed ∧
      d.signature = ⟨h.signature.ret,
        h.signature.params.take pos ++ kinds ++ h.signature.params.drop pos⟩ ∧
      d.program = .calling d.arity [] h
        (Program.slots 0 pos ++ Program.slots (pos + kinds.length) d.arity)) := by
  obtain ⟨_, _, checked, made⟩ := bind_eq_ok made
  have inside : pos + 0 ≤ h.signature.arity :=
    (Blueprint.requirePositions_ends h.signature pos 0).of_eq_ok (congrArg Prod.fst checked)
  refine ⟨inside, ?_⟩
  split at made
  · next none =>
    cases made
    exact .inl ⟨List.isEmpty_iff.1 none, rfl⟩
  · refine .inr ?_
    have ignored : Ends Halt.IsStatic (fun b => b.signature.WellFormed ∧
        b.signature = ⟨h.signature.ret,
          h.signature.params.take pos ++ kinds ++ h.signature.params.drop pos⟩ ∧
        b.program = .calling b.signature.arity [] h
          (Program.slots 0 pos ++ Program.slots (pos + kinds.length) b.signature.arity))
        (Blueprint.insertIgnored h pos kinds) := by
      refine (Ends.ofExcept (Signature.replaceParams_ends _ _ _ _)).bind fun s spec => ?_
      obtain ⟨-, -, signature, wellFormed⟩ := spec
      exact ⟨wellFormed, signature, rfl⟩
    exact Build.of_allocate ignored made

/-- A handle with ignored parameters is made as its handle is. -/
theorem dropArguments_wellFormed (wf : h.signature.WellFormed) (keeps : h.KeepsResult)
    (made : h.dropArguments pos kinds t = (.ok d, u)) :
    d.signature.WellFormed ∧ d.KeepsResult := by
  obtain ⟨-, ⟨-, rfl⟩ | ⟨wellFormed, signature, program⟩⟩ := dropArguments_eq_ok made
  · exact ⟨wf, keeps⟩
  · exact ⟨wellFormed, keepsResult_of_calling program (by rw [signature])⟩

/-- Ignored arguments are left out when the handle runs. -/
theorem dropArguments_rewires (keeps : h.KeepsResult)
    (made : h.dropArguments pos kinds t = (.ok d, u)) :
    d.signature = ⟨h.signature.ret,
        h.signature.params.take pos ++ kinds ++ h.signature.params.drop pos⟩ ∧
      d.Rewires h fun args => args.take pos ++ args.drop (pos + kinds.length) := by
  obtain ⟨inside, ⟨rfl, rfl⟩ | ⟨-, signature, program⟩⟩ := dropArguments_eq_ok made
  · refine ⟨Signature.ext rfl (by simp), (Rewires.refl d).congr fun args _ => ?_⟩
    exact (List.take_append_drop pos args).symm
  · have front : (h.signature.params.take pos).length = pos := List.length_take_of_le inside
    refine ⟨signature, .of_call (fun args conform => ?_) fun host n args lengths conform => ?_⟩
    · rw [signature] at conform
      have back : Conform (args.drop (pos + kinds.length)) (h.signature.params.drop pos) :=
        conform.drop (by simp [front])
      rw [List.append_assoc] at conform
      rw [← List.take_append_drop pos h.signature.params]
      exact List.rel_append (conform.take front) back
    · have enough : pos ≤ args.length := by
        rw [lengths, arity, signature, List.length_append, List.length_append, front]
        omega
      refine call_of_computes keeps program lengths (fun run limit => ?_) host n
      rw [← lengths]
      have nothing : Program.Computes run limit args [] [] (.ok []) :=
        ⟨[], rfl, by rw [List.append_nil]; rfl, .nil⟩
      simpa using nothing.between (.take enough) (.drop args (pos + kinds.length))

/-- What is made of a handle that is to match other parameters: two handles with ignored ones. -/
theorem dropArgumentsToMatch_eq_ok {skip : Nat}
    (made : h.dropArgumentsToMatch skip kinds pos t = (.ok d, u)) :
    skip ≤ h.arity ∧ pos + (h.arity - skip) ≤ kinds.length ∧
      (((kinds.drop pos).take (h.arity - skip)) == h.signature.paramsFrom skip) = true ∧
      ∃ leading t₁ u₁, h.dropArguments skip (kinds.take pos) t₁ = (.ok leading, u₁) ∧
        leading.dropArguments leading.arity (kinds.drop (pos + (h.arity - skip))) u₁ =
          (.ok d, u) := by
  have remaining : (h.signature.paramsFrom skip).length = h.arity - skip := List.length_drop
  obtain ⟨_, _, checked, made⟩ := bind_eq_ok made
  have inside : skip + 0 ≤ h.signature.arity :=
    (Blueprint.requirePositions_ends h.signature skip 0).of_eq_ok (congrArg Prod.fst checked)
  dsimp only at made
  rw [remaining] at made
  split at made
  · obtain ⟨_, _, refused, -⟩ := bind_eq_ok made
    cases refused
  next fits =>
  have fits : pos + (h.arity - skip) ≤ kinds.length := by omega
  obtain ⟨_, _, -, made⟩ := bind_eq_ok made
  obtain ⟨found, _, sliced, made⟩ := bind_eq_ok made
  have slice : slice? kinds pos (pos + (h.arity - skip)) =
      some ((kinds.drop pos).take (h.arity - skip)) := by
    unfold slice?
    rw [if_pos ⟨Nat.le_add_right _ _, fits⟩, Nat.add_sub_cancel_left]
  rw [slice] at sliced
  cases sliced
  split at made
  · obtain ⟨_, _, refused, -⟩ := bind_eq_ok made
    cases refused
  next same =>
  obtain ⟨leading, u₁, first, second⟩ := bind_eq_ok made
  exact ⟨inside, fits, by simpa [bne] using same, leading, _, u₁, first, second⟩

/-- Kinds of which some in a row are replaced by equal ones. -/
theorem kinds_replaced_beq {own : List Kind} {count : Nat}
    (same : ((kinds.drop pos).take count == own) = true) :
    (kinds.take pos ++ own ++ kinds.drop (pos + count) == kinds) = true := by
  have refl : ∀ ks : List Kind, List.Forall₂ (fun k l => (k == l) = true) ks ks :=
    fun ks => forall₂_of_beq (beq_self_eq_true ks)
  have split : kinds.take pos ++ (kinds.drop pos).take count ++ kinds.drop (pos + count) =
      kinds := by
    rw [List.append_assoc, ← List.drop_drop, List.take_append_drop, List.take_append_drop]
  conv => enter [1, 2]; rw [← split]
  refine beq_of_forall₂ (List.rel_append (List.rel_append (refl _) ?_) (refl _))
  refine (forall₂_of_beq same).flip.imp fun k l equal => ?_
  exact (Kind.same_comm k l).trans equal

/-- A handle that matches other parameters runs its handle on the leading ones and on those that are
in the place of its remaining parameters. -/
theorem dropArgumentsToMatch_rewires {skip : Nat} (wf : h.signature.WellFormed)
    (keeps : h.KeepsResult) (made : h.dropArgumentsToMatch skip kinds pos t = (.ok d, u)) :
    (d.signature == ⟨h.signature.ret, h.signature.params.take skip ++ kinds⟩) = true ∧
      d.Rewires h fun args =>
        args.take skip ++ (args.drop (skip + pos)).take (h.arity - skip) := by
  obtain ⟨inside, fits, same, leading, t₁, u₁, first, second⟩ := dropArgumentsToMatch_eq_ok made
  obtain ⟨own, leading_runs⟩ := dropArguments_rewires keeps first
  obtain ⟨whole, runs⟩ :=
    dropArguments_rewires (dropArguments_wellFormed wf keeps first).2 second
  have params : h.signature.params.length = h.arity := rfl
  have leading_arity : leading.arity = skip + pos + (h.arity - skip) := by
    rw [arity, own]
    simp only [List.length_append, List.length_take, List.length_drop, params]
    omega
  have signature : d.signature = ⟨h.signature.ret, h.signature.params.take skip ++
      (kinds.take pos ++ h.signature.paramsFrom skip ++
        kinds.drop (pos + (h.arity - skip)))⟩ := by
    refine whole.trans (Signature.ext (by rw [own]) ?_)
    rw [show leading.arity = leading.signature.params.length from rfl, List.take_length,
      List.drop_length, List.append_nil, own]
    simp only [List.append_assoc]
    rfl
  constructor
  · rw [signature, Signature.beq_iff_parts]
    refine ⟨beq_self_eq_true _, beq_of_forall₂ (List.rel_append ?_ ?_)⟩
    · exact forall₂_of_beq (beq_self_eq_true _)
    · exact forall₂_of_beq (kinds_replaced_beq same)
  · refine (runs.trans leading_runs).congr fun args conform => ?_
    have lengths : args.length = leading.arity + (kinds.drop (pos + (h.arity - skip))).length := by
      rw [conform.length_eq, signature]
      simp only [List.length_append, List.length_take, List.length_drop, Signature.paramsFrom,
        params]
      omega
    have taken : (kinds.take pos).length = pos := List.length_take_of_le (by omega)
    rw [← lengths, List.drop_length, List.append_nil, taken, leading_arity, List.take_take,
      List.drop_take]
    congr 2 <;> omega

end

end Handle

/-! Reordered arguments. -/

/-- Each of some parameters of a signature is of the kind that stands at its place. -/
def Signature.Supplies (s : Signature) (sources : List Nat) (wanted : List Kind) : Prop :=
  List.Forall₂ (fun source kind => ∃ own, s.params[source]? = some own ∧ (own == kind) = true)
    sources wanted

/-- The items at some positions of a list; positions beyond its end yield none. -/
def picked {α : Type} (sources : List Nat) (items : List α) : List α :=
  sources.filterMap (items[·]?)

theorem picked_eq_iff {α : Type} {sources : List Nat} {items found : List α}
    (inside : ∀ source ∈ sources, source < items.length) :
    picked sources items = found ↔
      List.Forall₂ (fun source item => items[source]? = some item) sources found := by
  induction sources generalizing found with
  | nil => simp [picked, eq_comm]
  | cons source rest ih =>
    obtain ⟨here, others⟩ := List.forall_mem_cons.1 inside
    have first : items[source]? = some items[source] := List.getElem?_eq_getElem here
    have split : picked (source :: rest) items = items[source] :: picked rest items :=
      List.filterMap_cons_some first
    rw [split, List.forall₂_cons_left_iff]
    constructor
    · rintro rfl
      exact ⟨_, _, first, (ih others).1 rfl, rfl⟩
    · rintro ⟨item, tail, found, same, rfl⟩
      rw [(ih others).2 same]
      rw [first] at found
      rw [Option.some.inj found]

/-- All items in their order. -/
theorem picked_range {α : Type} (items : List α) :
    picked (List.range items.length) items = items := by
  refine (picked_eq_iff fun source mem => List.mem_range.1 mem).2 ?_
  refine List.forall₂_of_length_eq_of_get (by simp) fun i _ inside => ?_
  simp [List.getElem?_eq_getElem inside]

/-- What is picked twice may be picked at once. -/
theorem picked_picked {α : Type} {first second : List Nat} {items : List α}
    (inside : ∀ source ∈ second, source < items.length)
    (inside' : ∀ source ∈ first, source < second.length) :
    picked first (picked second items) = picked (picked first second) items := by
  have found := (picked_eq_iff inside).1 rfl
  have found' := (picked_eq_iff inside').1 rfl
  have within : ∀ source ∈ first, source < (picked second items).length :=
    fun source mem => found.length_eq ▸ inside' source mem
  have still : ∀ source ∈ picked first second, source < items.length := by
    intro source mem
    obtain ⟨i, -, found⟩ := List.mem_filterMap.1 mem
    exact inside source (List.mem_of_getElem? found)
  refine (picked_eq_iff within).2 ?_
  have at_once := (picked_eq_iff still).1 rfl
  refine List.forall₂_of_length_eq_of_get (found'.length_eq.trans at_once.length_eq)
    fun i h₁ h₂ => ?_
  have middle : i < (picked first second).length := at_once.length_eq ▸ h₂
  obtain ⟨h₃, here⟩ := List.getElem?_eq_some_iff.1 (found'.get h₁ middle)
  obtain ⟨h₄, there⟩ := List.getElem?_eq_some_iff.1 (at_once.get middle h₂)
  have last : first[i] < (picked second items).length := within _ (List.getElem_mem h₁)
  obtain ⟨h₅, item⟩ := List.getElem?_eq_some_iff.1 (found.get h₃ last)
  simp only [List.get_eq_getElem] at here there item ⊢
  rw [List.getElem?_eq_getElem last, ← item, ← there]
  simp only [here]

namespace Signature.Supplies

variable {s : Signature} {sources : List Nat} {wanted : List Kind}

theorem inside (supplies : s.Supplies sources wanted) :
    ∀ source ∈ sources, source < s.arity := by
  intro source mem
  obtain ⟨i, here, rfl⟩ := List.getElem_of_mem mem
  obtain ⟨own, found, -⟩ := supplies.get here (supplies.length_eq ▸ here)
  exact (List.getElem?_eq_some_iff.1 found).1

/-- What is picked from arguments of the signature are values of the wanted kinds. -/
theorem conform (supplies : s.Supplies sources wanted) {args : List Value}
    (conform : Conform args s.params) : Conform (picked sources args) wanted := by
  have lengths : args.length = s.arity := conform.length_eq
  have found := (picked_eq_iff (fun source mem => lengths ▸ supplies.inside source mem)).1
    (Eq.refl (picked sources args))
  refine List.forall₂_of_length_eq_of_get (found.length_eq.symm.trans supplies.length_eq)
    fun i h₁ h₂ => ?_
  have here : i < sources.length := supplies.length_eq ▸ h₂
  obtain ⟨own, param, same⟩ := supplies.get here h₂
  obtain ⟨inside, item⟩ := List.getElem?_eq_some_iff.1 (found.get here h₁)
  obtain ⟨_, param⟩ := List.getElem?_eq_some_iff.1 param
  have belongs := conform.get inside (conform.length_eq ▸ inside)
  simp only [List.get_eq_getElem] at item param same belongs ⊢
  rw [item, param, Value.conforms_congr _ same] at belongs
  exact belongs

/-- All parameters supply themselves. -/
theorem refl (s : Signature) : s.Supplies (List.range s.arity) s.params := by
  refine List.forall₂_of_length_eq_of_get (List.length_range) fun i h₁ h₂ => ?_
  refine ⟨s.params[i], ?_, beq_self_eq_true _⟩
  simp [List.getElem?_eq_getElem h₂]

/-- What supplies the parameters of a signature that supplies others supplies these. -/
theorem comp {r : Signature} {first second : List Nat} (supplies : r.Supplies second s.params)
    (supplied : s.Supplies first wanted) : r.Supplies (picked first second) wanted := by
  have inside : ∀ source ∈ first, source < second.length :=
    fun source mem => Nat.lt_of_lt_of_eq (supplied.inside source mem) supplies.length_eq.symm
  have found := (picked_eq_iff inside).1 rfl
  refine List.forall₂_of_length_eq_of_get (found.length_eq.symm.trans supplied.length_eq)
    fun i h₁ h₂ => ?_
  have here : i < first.length := supplied.length_eq ▸ h₂
  obtain ⟨within, source⟩ := List.getElem?_eq_some_iff.1 (found.get here h₁)
  obtain ⟨own, param, same⟩ := supplied.get here h₂
  obtain ⟨last, param⟩ := List.getElem?_eq_some_iff.1 param
  obtain ⟨outer, outer_param, outer_same⟩ := supplies.get within last
  refine ⟨outer, ?_, ?_⟩
  · rw [← source]
    exact outer_param
  · have equal : (outer == own) = true := param ▸ outer_same
    exact (Kind.same_congr equal _).trans same

end Signature.Supplies

namespace Blueprint

variable {h : Handle} {s : Signature} {reorder : List Nat}

theorem permuteArguments_supplies (h : Handle) (s : Signature) (reorder : List Nat) :
    Ends Halt.IsStatic
      (fun b => (s.ret == h.signature.ret) = true ∧ s.Supplies reorder h.signature.params ∧
        b = ⟨s, .calling s.arity [] h reorder⟩)
      (permuteArguments h s reorder) := by
  unfold permuteArguments
  refine Ends.check rfl fun lengths => ?_
  refine Ends.check rfl fun rets => ?_
  refine Ends.bind (P := fun _ => ∀ a ∈ reorder.mapIdx Prod.mk, ∃ supplied wanted,
    s.params[a.2]? = some supplied ∧ h.signature.params[a.1]? = some wanted ∧
      (supplied == wanted) = true) (forIn_ends fun a _ => ?_) fun _ fed => ?_
  · exact (requireFeed_ends h.signature s a.1 a.2).bind fun _ spec => ⟨rfl, spec⟩
  refine ⟨by simpa [bne] using rets, ?_, rfl⟩
  refine List.forall₂_of_length_eq_of_get (by simpa [bne, Signature.arity] using lengths)
    fun i h₁ h₂ => ?_
  have mem : (i, reorder[i]) ∈ reorder.mapIdx Prod.mk := List.mem_mapIdx.2 ⟨i, h₁, rfl⟩
  obtain ⟨supplied, wanted, hsupplied, hwanted, same⟩ := fed _ mem
  obtain ⟨_, rfl⟩ := List.getElem?_eq_some_iff.1 hwanted
  exact ⟨supplied, hsupplied, same⟩

theorem requireFeed_of_supplied {own : Signature} {slot source : Nat} {supplied wanted : Kind}
    (found : s.params[source]? = some supplied) (needed : own.params[slot]? = some wanted)
    (same : (supplied == wanted) = true) : requireFeed own s slot source = .ok () := by
  have inside : ¬ source ≥ s.arity := Nat.not_le.2 (List.getElem?_eq_some_iff.1 found).1
  unfold requireFeed
  rw [if_neg inside, found, needed]
  show (if (supplied != wanted) = true then _ else _) = _
  rw [bne, same]
  rfl

/-- A loop over checks that all pass. -/
theorem forIn_eq_ok {ε α : Type} {xs : List α} {f : α → Except ε (ForInStep PUnit)}
    (passes : ∀ a ∈ xs, f a = .ok (.yield ⟨⟩)) :
    (forIn xs PUnit.unit fun a _ => f a) = .ok ⟨⟩ := by
  induction xs with
  | nil => rfl
  | cons a rest ih =>
    obtain ⟨here, others⟩ := List.forall_mem_cons.1 passes
    rw [List.forIn_cons, here]
    exact ih others

theorem permuteArguments_of_supplies (ret : (s.ret == h.signature.ret) = true)
    (supplies : s.Supplies reorder h.signature.params) :
    permuteArguments h s reorder = .ok ⟨s, .calling s.arity [] h reorder⟩ := by
  have lengths : (reorder.length != h.signature.arity) = false := by
    simpa [Signature.arity] using supplies.length_eq
  have rets : (s.ret != h.signature.ret) = false := by simp [bne, ret]
  have fed : ∀ a ∈ reorder.mapIdx Prod.mk, requireFeed h.signature s a.1 a.2 = .ok () := by
    intro a mem
    obtain ⟨i, inside, rfl⟩ := List.mem_mapIdx.1 mem
    have needed : i < h.signature.params.length := supplies.length_eq ▸ inside
    obtain ⟨own, found, same⟩ := supplies.get inside needed
    exact requireFeed_of_supplied found (List.getElem?_eq_getElem needed) same
  unfold permuteArguments
  dsimp only
  rw [lengths, rets]
  simp only [Bool.false_eq_true, if_false]
  rw [forIn_eq_ok fun a mem => by rw [fed a mem]; rfl]
  rfl

end Blueprint

namespace Handle

variable {h d : Handle} {t u : HandleTable} {s : Signature} {reorder : List Nat}

/-- Arguments may be reordered if each is supplied at its kind and the results agree. -/
theorem permuteArguments_build_iff (t : HandleTable) :
    (∃ d u, (Construction.permuteArguments h s reorder).build t = (.ok d, u)) ↔
      (s.ret == h.signature.ret) = true ∧ s.Supplies reorder h.signature.params := by
  unfold Construction.build
  constructor
  · rintro ⟨d, u, made⟩
    obtain ⟨ret, supplies, -⟩ :=
      Build.of_allocate (Blueprint.permuteArguments_supplies h s reorder) made
    exact ⟨ret, supplies⟩
  · rintro ⟨ret, supplies⟩
    dsimp only
    rw [Blueprint.permuteArguments_of_supplies ret supplies]
    exact ⟨_, _, rfl⟩

/-- A handle runs on the arguments that were picked for it. -/
theorem permuteArguments_rewires (keeps : h.KeepsResult)
    (made : (Construction.permuteArguments h s reorder).build t = (.ok d, u)) :
    d.signature = s ∧ d.KeepsResult ∧ d.Rewires h (picked reorder) := by
  obtain ⟨ret, supplies, same⟩ :=
    Build.of_allocate (Blueprint.permuteArguments_supplies h s reorder) made
  have signature : d.signature = s := congrArg Blueprint.signature same
  have program : d.program = .calling d.arity [] h reorder := by
    rw [arity, signature]
    exact congrArg Blueprint.program same
  refine ⟨signature, ?_, .of_call (fun args conform => ?_) fun host n args lengths conform => ?_⟩
  · exact keepsResult_of_calling program (signature ▸ (Kind.isVoid_congr ret).symm)
  · rw [signature] at conform
    exact supplies.conform conform
  · refine call_of_computes keeps program lengths (fun run limit => ?_) host n
    refine ⟨[], rfl, by rw [List.append_nil]; rfl, ?_⟩
    rw [List.append_nil]
    refine (picked_eq_iff fun source mem => ?_).1 rfl
    rw [lengths, arity, signature]
    exact supplies.inside source mem

/-! What follows from the equations. -/

/-- Values that are inserted where parameters were added go to the added parameters. -/
theorem insertArguments_after_dropArguments {pos : Nat} {kinds : List Kind}
    {values : List Value} {t' : HandleTable} (wf : h.signature.WellFormed) (keeps : h.KeepsResult)
    (dropped : h.dropArguments pos kinds t = (.ok d, u)) (count : values.length = kinds.length) :
    ((∃ e v, (Construction.insertArguments d pos values).build t' = (.ok e, v)) ↔
        ∃ bound, Value.coerceAll (values.zip kinds) = .ok bound) ∧
      ∀ e v, (Construction.insertArguments d pos values).build t' = (.ok e, v) → e.Alike h := by
  obtain ⟨inside, -⟩ := dropArguments_eq_ok dropped
  obtain ⟨wf', keeps'⟩ := dropArguments_wellFormed wf keeps dropped
  obtain ⟨signature, runs⟩ := dropArguments_rewires keeps dropped
  have front : (h.signature.params.take pos).length = pos := List.length_take_of_le inside
  have enough : pos + values.length ≤ d.arity := by
    rw [arity, signature, count]
    simp only [List.length_append, front]
    omega
  have added : d.signature.paramsFrom pos = kinds ++ h.signature.params.drop pos := by
    rw [Signature.paramsFrom, signature, List.append_assoc, List.drop_left' front]
  have fitted : Value.coerceAll (values.zip (d.signature.paramsFrom pos)) =
      Value.coerceAll (values.zip kinds) := by
    rw [added, ← Value.coerceAll_zip_take, List.take_left' count.symm]
  have accepted := @insertArguments_build_iff d pos values wf' t'
  rw [fitted] at accepted
  refine ⟨accepted.trans ⟨fun both => both.2, fun fits => ⟨enough, fits⟩⟩, fun e v made => ?_⟩
  obtain ⟨-, bound, done⟩ := accepted.1 ⟨e, v, made⟩
  obtain ⟨signature', runs'⟩ := insertArguments_rewires wf' keeps' made (fitted.trans done)
  have bound_count : bound.length = kinds.length :=
    (Value.conform_of_coerceAll count done).length_eq
  have same : e.signature = h.signature := by
    rw [signature', signature, count]
    refine Signature.ext rfl ?_
    dsimp only
    rw [List.append_assoc, List.take_left' front, ← List.append_assoc,
      List.drop_left' (by rw [List.length_append, front]), List.take_append_drop]
  refine (runs'.trans runs).alike (.refl h) same fun args conform => ?_
  have taken : (args.take pos).length = pos :=
    List.length_take_of_le (conform.length_eq ▸ inside)
  rw [List.append_assoc, List.take_left' taken, ← List.append_assoc,
    List.drop_left' (by rw [List.length_append, taken, bound_count]), List.take_append_drop]

/-- All arguments in their order are the arguments. -/
theorem permuteArguments_identity (keeps : h.KeepsResult) (t : HandleTable) :
    ∃ d u, (Construction.permuteArguments h h.signature (List.range h.arity)).build t = (.ok d, u) ∧
      d.Alike h := by
  obtain ⟨d, u, made⟩ := (permuteArguments_build_iff t).2
    ⟨beq_self_eq_true h.signature.ret, Signature.Supplies.refl h.signature⟩
  obtain ⟨signature, -, runs⟩ := permuteArguments_rewires keeps made
  refine ⟨d, u, made, runs.alike (.refl h) signature fun args conform => ?_⟩
  have lengths : args.length = h.signature.arity := conform.length_eq
  rw [← lengths, picked_range]

/-- Arguments that are reordered twice may be reordered at once. -/
theorem permuteArguments_twice {d' : Handle} {t' u' : HandleTable} {s' : Signature}
    {reorder' : List Nat} (keeps : h.KeepsResult)
    (first : (Construction.permuteArguments h s reorder).build t = (.ok d, u))
    (second : (Construction.permuteArguments d s' reorder').build t' = (.ok d', u'))
    (t'' : HandleTable) :
    ∃ e v, (Construction.permuteArguments h s' (picked reorder reorder')).build t'' = (.ok e, v) ∧
      d'.Alike e := by
  obtain ⟨ret, supplies⟩ := (permuteArguments_build_iff t).1 ⟨d, u, first⟩
  obtain ⟨ret', supplies'⟩ := (permuteArguments_build_iff t').1 ⟨d', u', second⟩
  obtain ⟨signature, keeps', runs⟩ := permuteArguments_rewires keeps first
  obtain ⟨signature', -, runs'⟩ := permuteArguments_rewires keeps' second
  rw [signature] at ret' supplies'
  have at_once := supplies'.comp supplies
  obtain ⟨e, v, made⟩ := (permuteArguments_build_iff t'').2
    ⟨(Kind.same_congr ret' _).trans ret, at_once⟩
  obtain ⟨whole, -, runs''⟩ := permuteArguments_rewires keeps made
  refine ⟨e, v, made, (runs'.trans runs).alike runs'' (signature'.trans whole.symm)
    fun args conform => ?_⟩
  have lengths : args.length = s'.arity := (whole ▸ conform).length_eq
  refine picked_picked (fun source mem => lengths ▸ supplies'.inside source mem) ?_
  intro source mem
  exact Nat.lt_of_lt_of_eq (supplies.inside source mem) supplies'.length_eq.symm

/-- The adapters that rewire arguments obey their equations at every position. Values are inserted
exactly where there are parameters for them that they fit, and stand between the arguments; ignored
arguments are left out, also by a handle that is to match other parameters; arguments are reordered
exactly where each is supplied at its kind. So values inserted at ignored parameters change nothing,
and neither does the order as it is; and two orders, one after the other, are one. -/
theorem argument_adapters (wf : h.signature.WellFormed) (keeps : h.KeepsResult) :
    let own := h.signature
    (∀ pos values t,
      ((∃ d u, (Construction.insertArguments h pos values).build t = (.ok d, u)) ↔
        pos + values.length ≤ h.arity ∧
          ∃ bound, Value.coerceAll (values.zip (own.paramsFrom pos)) = .ok bound) ∧
      ∀ d u bound, (Construction.insertArguments h pos values).build t = (.ok d, u) →
        Value.coerceAll (values.zip (own.paramsFrom pos)) = .ok bound →
        d.signature = ⟨own.ret, own.params.take pos ++ own.params.drop (pos + values.length)⟩ ∧
          d.Rewires h fun args => args.take pos ++ bound ++ args.drop pos) ∧
    (∀ pos kinds t d u, (Construction.dropArguments h pos kinds).build t = (.ok d, u) →
      d.signature = ⟨own.ret, own.params.take pos ++ kinds ++ own.params.drop pos⟩ ∧
      (d.Rewires h fun args => args.take pos ++ args.drop (pos + kinds.length)) ∧
      ∀ values t', values.length = kinds.length →
        ((∃ e v, (Construction.insertArguments d pos values).build t' = (.ok e, v)) ↔
          ∃ bound, Value.coerceAll (values.zip kinds) = .ok bound) ∧
        ∀ e v, (Construction.insertArguments d pos values).build t' = (.ok e, v) → e.Alike h) ∧
    (∀ skip kinds pos t d u,
      (Construction.dropArgumentsToMatch h skip kinds pos).build t = (.ok d, u) →
      (d.signature == ⟨own.ret, own.params.take skip ++ kinds⟩) = true ∧
        d.Rewires h fun args =>
          args.take skip ++ (args.drop (skip + pos)).take (h.arity - skip)) ∧
    (∀ s reorder t,
      ((∃ d u, (Construction.permuteArguments h s reorder).build t = (.ok d, u)) ↔
        (s.ret == own.ret) = true ∧ s.Supplies reorder own.params) ∧
      ∀ d u, (Construction.permuteArguments h s reorder).build t = (.ok d, u) →
        d.signature = s ∧ d.Rewires h (picked reorder) ∧
        ∀ s' reorder' t' d' u',
          (Construction.permuteArguments d s' reorder').build t' = (.ok d', u') →
          ∀ t'', ∃ e v,
            (Construction.permuteArguments h s' (picked reorder reorder')).build t'' = (.ok e, v) ∧
              d'.Alike e) ∧
    ∀ t, ∃ d u, (Construction.permuteArguments h own (List.range h.arity)).build t = (.ok d, u) ∧
      d.Alike h := by
  refine ⟨fun pos values t => ⟨insertArguments_build_iff wf t, fun d u bound made done =>
      insertArguments_rewires wf keeps made done⟩,
    fun pos kinds t d u made => ?_,
    fun skip kinds pos t d u made => dropArgumentsToMatch_rewires wf keeps made,
    fun s reorder t => ⟨permuteArguments_build_iff t, fun d u made => ?_⟩,
    permuteArguments_identity keeps⟩
  · obtain ⟨signature, runs⟩ := dropArguments_rewires keeps made
    exact ⟨signature, runs, fun values t' count =>
      insertArguments_after_dropArguments wf keeps made count⟩
  · obtain ⟨signature, -, runs⟩ := permuteArguments_rewires keeps made
    exact ⟨signature, runs, fun s' reorder' t' d' u' again =>
      permuteArguments_twice keeps made again⟩

theorem argument_adapters_swapped :
    let h := Handle.ofHost 0 ⟨.int, [.int, .int]⟩
    h.signature.WellFormed ∧ h.KeepsResult ∧ ∃ d u,
      (Construction.permuteArguments h h.signature [1, 0]).build .empty = (.ok d, u) ∧
        d.Rewires h (picked [1, 0]) ∧
        (d.invokeExact (runCode .echo 5) [.int 1, .int 2] .empty).1 = .ok (.int 2) := by
  intro h
  have wf : h.signature.WellFormed := ⟨by decide, by simp [h, ofHost, Kind.int]⟩
  have made : (Construction.permuteArguments h h.signature [1, 0]).build .empty = (.ok _, _) := rfl
  obtain ⟨-, -, -, permuted, -⟩ := argument_adapters wf rfl
  obtain ⟨-, runs⟩ := permuted h.signature [1, 0] .empty
  exact ⟨wf, rfl, _, _, made, (runs _ _ made).2.1, rfl⟩

end Handle
end TypedHandles
