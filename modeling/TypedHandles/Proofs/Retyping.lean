import TypedHandles.Proofs.Capturing
import TypedHandles.Proofs.VariableArity

/-!
Handles read at another signature. A strict view is a lenient view, and a lenient view is a loose
conversion; so where a strict view is allowed a handle may be adapted, read strictly and read
leniently. The first two run its program as it stands and the third converts on the way in and out.
On values of the signature all three do the same: no upcast of a value that conforms ever fails, and
what the handle returns conforms.
-/
namespace TypedHandles

variable {F : ClassLibrary} {K : Known}

/-! What may be read may be converted. -/

namespace Kind

variable {k l : Kind}

theorem isViewableAs_lenient (view : k.isViewableAs l true = true) :
    k.isViewableAs l false = true := by
  rcases isViewableAs_strict_iff.1 view with same | ⟨s, t, rfl, rfl, below⟩
  · simp [isViewableAs, same]
  · simp [isViewableAs, isConvertibleTo, RefType.isRelatedTo, below]

theorem isConvertibleTo_of_isViewableAs (view : k.isViewableAs l false = true) :
    k.isConvertibleTo l = true := by
  unfold isViewableAs at view
  rcases Bool.or_eq_true_iff.1 view with same | view
  · simp [isConvertibleTo, same]
  · cases k with
    | void => cases l <;> cases view
    | prim p =>
      cases l with
      | prim q =>
        have widens : p.widensTo q = true := view
        simp [isConvertibleTo, widens]
      | _ => cases view
    | ref s =>
      cases l with
      | ref t => exact view
      | _ => cases view

end Kind

namespace Signature

variable {s t : Signature}

/-- What a signature may be read as under a rule it may be read as under any weaker rule. -/
theorem isViewableAs_lenient (view : s.isViewableAs t true = true) :
    s.isViewableAs t false = true := by
  simp only [isViewableAs, Bool.and_eq_true, List.all_eq_true] at view ⊢
  obtain ⟨⟨arity, params⟩, ret⟩ := view
  exact ⟨⟨arity, fun pair mem => Kind.isViewableAs_lenient (params pair mem)⟩,
    Kind.isViewableAs_lenient ret⟩

theorem isConvertibleTo_of_isViewableAs (view : s.isViewableAs t false = true) :
    s.isConvertibleTo t = true := by
  simp only [isViewableAs, isConvertibleTo, Bool.and_eq_true, Bool.or_eq_true,
    List.all_eq_true] at view ⊢
  obtain ⟨⟨arity, params⟩, ret⟩ := view
  exact .inr ⟨⟨arity, fun pair mem => Kind.isConvertibleTo_of_isViewableAs (params pair mem)⟩,
    Kind.isConvertibleTo_of_isViewableAs ret⟩

end Signature

/-- What echoing functions return was at hand. -/
theorem Host.echo_uses (F : ClassLibrary) (K : Known) : Host.echo.Uses F K := by
  intro K' f args _ _ made
  cases args with
  | nil => exact .plain rfl
  | cons v rest => exact made v List.mem_cons_self

namespace Handle

variable {h : Handle} {t : Signature} {args : List Value} {s : State} {host : Host} {n : Nat}

/-- What the program of a handle does at a signature, on any values of it at hand: from every state
that is reached the code does the same, with the same events and the same state after it, but so
many calls deeper. -/
def RunsAt (F : ClassLibrary) (h : Handle) (t : Signature) (deeper : Nat) (code : Code) : Prop :=
  ∀ ⦃values args : List Value⦄ ⦃s : State⦄ ⦃host : Host⦄, Reached F values s →
    Among values (.handle h) → host.Uses F (Among values) →
    (∀ v ∈ args, v.MadeOf F (Among values)) → Conform args t.params → ∀ n,
      runCode host (n + deeper) code args s = runCode host n (.program t h.program) args s

/-- The signature that a program is read at makes no difference when it runs. -/
theorem call_eq (host : Host) (n : Nat) (h : Handle) (t : Signature) (args : List Value) :
    (runCode host n).call h args = runCode host n (.program t h.program) args := by
  cases n with
  | zero => rfl
  | succ n => rfl

/-- The adapter does what the program does by itself: nothing changes on the way in, since no upcast
of a value that conforms fails, nor on the way out, since what the handle returns conforms. -/
theorem converting_runsAt (view : h.signature.isViewableAs t true = true) (valid : t.Valid F.Has) :
    h.RunsAt F t 1 (.program t (Blueprint.converting h t).program) := by
  intro values args s host reached known uses made conform n
  obtain ⟨K, sound, valuesMade⟩ := reached.sound
  have grows := Among.grows valuesMade
  have own := (sound.knowledge.handle h (grows _ known)).valid
  have fits : Fits F K args t.params := ⟨conform, forall_madeOf_mono grows made⟩
  have yields := fun values (fits : Fits F K values h.signature.params) =>
    call_yields (uses.mono grows) sound (grows _ known) fits n
  have asIs : h.servesAsIs t = true := by rw [servesAsIs, view, Bool.or_true]
  have arity : t.arity = h.arity := (views_of_servesAsIs asIs).1.length_eq
  rw [← call_eq, runCode_converting own valid arity fits yields,
    through_of_asIs sound.knowledge own valid asIs fits yields]

/-! The three readings of a handle at a signature. -/

/-- What a handle is at a signature: adapted to it, read at it strictly, and read at it
leniently. -/
structure Readings (h : Handle) (t : Signature) (s : State) (adapted strict lenient : Handle) :
    Prop where
  asType : ∃ table, h.asType t s.handles = (.ok adapted, table)
  viewAs_strict : ∃ table, h.viewAs t true s.handles = (.ok strict, table)
  viewAs_lenient : ∃ table, h.viewAs t false s.handles = (.ok lenient, table)

/-- How many calls deeper a lenient view runs: it converts, unless it is the handle itself. -/
def lenientLayers (h : Handle) (t : Signature) : Nat := if h.signature == t then 0 else 1

theorem viewAs_self (same : (h.signature == t) = true) (strict : Bool) (table : HandleTable) :
    h.viewAs t strict table = (.ok h, table) := by
  unfold viewAs
  simp only [same]
  rfl

theorem viewAs_of_isViewableAs {strict : Bool} (differ : ¬ (h.signature == t) = true)
    (view : h.signature.isViewableAs t strict = true) (table : HandleTable) :
    h.viewAs t strict table = (if strict then Blueprint.sharing h t
      else Blueprint.converting h t).make table := by
  unfold viewAs
  simp only [if_neg differ, view]
  rfl

/-- Where a strict view is allowed there are all three readings, of the signature itself; the first
two run the handle's program, and so does the third or it is the adapter. -/
theorem readings_of_isViewableAs (own : h.signature.Valid F.Has) (valid : t.Valid F.Has)
    (recalls : s.handles.Recalls h t) (view : h.signature.isViewableAs t true = true) :
    ∃ a b c, h.Readings t s a b c ∧ (a.signature = t ∧ b.signature = t ∧ c.signature = t) ∧
      a.program = h.program ∧ b.program = h.program ∧
      c.program = if h.signature == t then h.program else (Blueprint.converting h t).program := by
  by_cases same : (h.signature == t) = true
  · have adapted := asType_of_beq same s.handles
    have signature := (Signature.beq_iff own valid).1 same
    exact ⟨h, h, h,
      ⟨⟨_, adapted⟩, ⟨_, viewAs_self same _ _⟩, ⟨_, viewAs_self same _ _⟩⟩,
      ⟨signature, signature, signature⟩, rfl, rfl, (if_pos same).symm⟩
  · have lenient := Signature.isViewableAs_lenient view
    have convertible := Signature.isConvertibleTo_of_isViewableAs lenient
    obtain ⟨a, table, adapted, equal, code⟩ := asType_of_isConvertibleTo recalls convertible
    have program : h.codeFor t = .program t h.program := by
      unfold codeFor Blueprint.adapting
      rw [if_neg same, if_pos view]
      rfl
    obtain ⟨signature, program⟩ := Code.program.inj (code.trans program)
    exact ⟨a, _, _,
      ⟨⟨_, adapted⟩, ⟨_, viewAs_of_isViewableAs same view _⟩,
        ⟨_, viewAs_of_isViewableAs same lenient _⟩⟩,
      ⟨signature, rfl, rfl⟩, program, rfl, (if_neg same).symm⟩

/-- Handles of one signature that come to the same when they are invoked exactly: from every state
that is reached, on any arguments at hand. The third one may be so many calls deeper. -/
structure Interchangeable (F : ClassLibrary) (h : Handle) (t : Signature) (a b c : Handle) :
    Prop where
  signatures : a.signature = t ∧ b.signature = t ∧ c.signature = t
  invokeExact : ∀ ⦃values args : List Value⦄ ⦃s : State⦄ ⦃host : Host⦄, Reached F values s →
    Among values (.handle h) → host.Uses F (Among values) →
    (∀ v ∈ args, v.MadeOf F (Among values)) → ∀ n,
      a.invokeExact (runCode host n) args s = b.invokeExact (runCode host n) args s ∧
      c.invokeExact (runCode host (n + h.lenientLayers t)) args s =
        b.invokeExact (runCode host n) args s

/-- Handles of one signature are invoked exactly with the same check, and then called. -/
theorem invokeExact_congr_at {r b : Handle} {run run' : Runner}
    (signature : r.signature = b.signature)
    (called : Conform args b.signature.params → run.call r args s = run'.call b args s) :
    r.invokeExact run args s = b.invokeExact run' args s := by
  by_cases conform : Conform args b.signature.params
  · rw [r.invokeExact_of_conform _ (signature ▸ conform), b.invokeExact_of_conform _ conform,
      called conform]
  · obtain ⟨failure, checked, refused⟩ := invokeExact_of_not_conform conform run'
    have checks : r.checkArguments args = .error failure := by
      rw [← checked]
      unfold checkArguments arity
      rw [signature]
    rw [refused, invokeExact, checks]
    rfl

/-- Reading a handle at a signature by sharing its program and by converting comes to the same. -/
theorem retyping_agreement {values : List Value} (reached : Reached F values s)
    (known : Among values (.handle h)) (valid : t.Valid F.Has) :
    (h.signature.isViewableAs t true = true → h.signature.isViewableAs t false = true) ∧
    (h.signature.isViewableAs t false = true → h.signature.isConvertibleTo t = true) ∧
    (h.signature.isViewableAs t true = true →
      h.RunsAt F t 1 (.program t (Blueprint.converting h t).program) ∧
      ∃ a b c, h.Readings t s a b c ∧ a.program = h.program ∧ b.program = h.program ∧
        Interchangeable F h t a b c) := by
  refine ⟨Signature.isViewableAs_lenient, Signature.isConvertibleTo_of_isViewableAs, fun view => ?_⟩
  have converting := converting_runsAt view valid
  obtain ⟨K, sound, valuesMade⟩ := reached.sound
  have known' := Among.grows valuesMade _ known
  have own := (sound.knowledge.handle h known').valid
  have recalls := sound.handles.recalls sound.knowledge known' valid
  obtain ⟨a, b, c, readings, signatures, shared, shared', lenient⟩ :=
    readings_of_isViewableAs own valid recalls view
  refine ⟨converting, a, b, c, readings, shared, shared', signatures, ?_⟩
  obtain ⟨ha, hb, hc⟩ := signatures
  intro values' args s' host reached' known' uses made n
  refine ⟨invokeExact_congr_at (ha.trans hb.symm) fun _ => ?_,
    invokeExact_congr_at (hc.trans hb.symm) fun conform => ?_⟩
  · rw [call_eq host n a t, call_eq host n b t, shared, shared']
  · rw [call_eq host _ c t, call_eq host n b t, lenient, shared', lenientLayers]
    by_cases same : (h.signature == t) = true
    · rw [if_pos same, if_pos same]
      rfl
    · rw [if_neg same, if_neg same]
      exact converting reached' known' uses made (hb ▸ conform) n

/-- A function over one exception class is read at the class below it and returns what lies
above. -/
theorem retyping_agreement_upcast :
    ∃ (values : List Value) (s : State) (h a b c : Handle) (t : Throwable),
      Reached .builtin values s ∧ Among values (.handle h) ∧
      h.signature = ⟨.ofClass .runtimeException, [.ofClass .runtimeException]⟩ ∧
      h.Readings ⟨.throwable, [.ofClass .nullPointer]⟩ s a b c ∧
      h.lenientLayers ⟨.throwable, [.ofClass .nullPointer]⟩ = 1 ∧
      a.invokeExact (runCode .echo 3) [.throwable t] s =
        b.invokeExact (runCode .echo 3) [.throwable t] s ∧
      c.invokeExact (runCode .echo 4) [.throwable t] s =
        b.invokeExact (runCode .echo 3) [.throwable t] s ∧
      (b.invokeExact (runCode .echo 3) [.throwable t] s).1 = .ok (.throwable t) := by
  have own : Signature.Valid ClassLibrary.builtin.Has
      ⟨.ofClass .runtimeException, [.ofClass .runtimeException]⟩ := by
    refine ⟨⟨by decide, by simp [Kind.ofClass]⟩, ?_, ?_⟩ <;>
      simp [Kind.ofClass, ClassLibrary.builtin, ClassFamily.builtin, ClassDef.builtins]
  have valid : Signature.Valid ClassLibrary.builtin.Has
      ⟨.throwable, [.ofClass .nullPointer]⟩ := by
    refine ⟨⟨by decide, by simp [Kind.ofClass]⟩, ?_, ?_⟩ <;>
      simp [Kind.ofClass, Kind.throwable, RefType.Over, ClassLibrary.builtin, ClassFamily.builtin,
        ClassDef.builtins]
  have has : ClassLibrary.builtin.Has .nullPointer := by
    simp [ClassLibrary.builtin, ClassFamily.builtin, ClassDef.builtins]
  have idle := Host.idle_uses .builtin
  have thrown := Reached.start.perform (.newThrowable .nullPointer "absent") 1 (idle _)
    ⟨has, by decide⟩
  have made := thrown.perform (.construct (.ofAction
    ⟨.ofClass .runtimeException, [.ofClass .runtimeException]⟩ (.host ⟨0, "echo"⟩))) 1 (idle _)
    ⟨own, trivial⟩
  obtain ⟨-, -, agreement⟩ := retyping_agreement made (Among.last rfl) valid
  obtain ⟨-, a, b, c, readings, -, shared, interchangeable⟩ := agreement (by decide)
  obtain ⟨adapted, lenient⟩ := interchangeable.invokeExact made (Among.last rfl)
    (Host.echo_uses _ _) (List.forall_mem_singleton.2
      (Value.madeOf_throwable_iff.2 ((Among.last rfl).later))) 3
  refine ⟨_, _, _, a, b, c, ⟨0, .nullPointer, "absent"⟩, made, Among.last rfl, rfl, readings, rfl,
    adapted, lenient, ?_⟩
  have signature := interchangeable.signatures.2.1
  rw [b.invokeExact_of_conform _ (signature ▸ .cons (by decide) .nil),
    call_eq _ _ b ⟨.throwable, [.ofClass .nullPointer]⟩, shared]
  rfl

end Handle
end TypedHandles
