import TypedHandles.Proofs.Primitives

/-!
Typed programs run safely: every step passes each handle values of its parameters, and fills its
slot with a value of the slot's kind.

`Runner.Agree` says so of two ways to run code at once, and that they do the same on code that takes
its arguments; the lemmas here extend it from the code inside a step to the step, and from steps to
loops and programs.
-/
namespace TypedHandles

variable {F : ClassLibrary} {K K' : Known}

/-- A value of a kind, made of what is at hand. -/
def OfKind (F : ClassLibrary) (k : Kind) (K : Known) (v : Value) : Prop :=
  v.MadeOf F K ∧ v.conforms k = true

/-- Values of some kinds, made of what is at hand. -/
structure Fits (F : ClassLibrary) (K : Known) (vs : List Value) (ks : List Kind) : Prop where
  conform : Conform vs ks
  made : ∀ v ∈ vs, v.MadeOf F K

namespace Fits

variable {vs ws : List Value} {ks ls : List Kind} {n : Nat} {element : Kind}

theorem nil : Fits F K [] [] := ⟨.nil, List.forall_mem_nil _⟩

theorem mono (grows : K.Grows K') (h : Fits F K vs ks) : Fits F K' vs ks :=
  ⟨h.conform, fun v mem => (h.made v mem).mono grows⟩

theorem append (h : Fits F K vs ks) (h' : Fits F K ws ls) : Fits F K (vs ++ ws) (ks ++ ls) :=
  ⟨h.conform.append h'.conform, List.forall_mem_append.2 ⟨h.made, h'.made⟩⟩

theorem cons {v : Value} {k : Kind} (made : v.MadeOf F K) (conforms : v.conforms k = true)
    (h : Fits F K vs ks) : Fits F K (v :: vs) (k :: ks) :=
  ⟨.cons conforms h.conform, List.forall_mem_cons.2 ⟨made, h.made⟩⟩

theorem single {v : Value} {k : Kind} (made : v.MadeOf F K) (conforms : v.conforms k = true) :
    Fits F K [v] [k] :=
  cons made conforms nil

theorem flow (knowledge : Knowledge F K) (h : Fits F K vs ks)
    (flows : List.Forall₂ (Kind.FlowsInto F.Has) ks ls) : Fits F K vs ls :=
  ⟨h.conform.flow (fun v mem => Value.over_of_madeOf knowledge (h.made v mem)) flows, h.made⟩

theorem getElem? (h : Fits F K vs ks) {i : Nat} {k : Kind} (found : ks[i]? = some k) :
    ∃ v, vs[i]? = some v ∧ v.MadeOf F K ∧ v.conforms k = true := by
  have inside : i < vs.length := by
    rw [h.conform.length_eq]
    exact (List.getElem?_eq_some_iff.1 found).1
  have here := List.getElem?_eq_getElem inside
  exact ⟨vs[i], here, h.made _ (List.getElem_mem inside), h.conform.getElem? here found⟩

/-- Another value of the same kind may take a place. -/
theorem set (h : Fits F K vs ks) {i : Nat} {k : Kind} {v : Value} (found : ks[i]? = some k)
    (made : v.MadeOf F K) (conforms : v.conforms k = true) : Fits F K (vs.set i v) ks := by
  refine ⟨?_, fun w mem => ?_⟩
  · obtain ⟨inside, rfl⟩ := List.getElem?_eq_some_iff.1 found
    refine List.forall₂_of_length_eq_of_get (by simpa using h.conform.length_eq) fun j h₁ h₂ => ?_
    rw [List.get_eq_getElem, List.get_eq_getElem, List.getElem_set]
    split
    · next same =>
      subst same
      exact conforms
    · exact List.Forall₂.get h.conform (by simpa using h₁) h₂
  · rcases List.mem_or_eq_of_mem_set mem with mem | rfl
    · exact h.made w mem
    · exact made

/-- Leading values fit leading kinds, and there are enough of them. -/
theorem leading (h : Fits F K vs ks) (leads : ls <+: ks) :
    ∃ ws, TypedHandles.leading vs ls.length = pure ws ∧ Fits F K ws ls := by
  obtain ⟨rest, rfl⟩ := leads
  have enough : ls.length ≤ vs.length := by
    rw [h.conform.length_eq, List.length_append]
    exact Nat.le_add_right _ _
  refine ⟨vs.take ls.length, ?_, ?_, fun v mem => h.made v (List.mem_of_mem_take mem)⟩
  · simp [TypedHandles.leading, slice?, enough]
    rfl
  · exact List.forall₂_take_append vs ls rest h.conform

/-- Values of one kind make an array of it. -/
theorem array (h : Fits F K vs (List.replicate n element)) (given : element.Over F.Has) :
    OfKind F (.arrayOf element) K (.array element vs) := by
  have conform : ∀ v ∈ vs, v.conforms element = true := by
    intro v mem
    obtain ⟨i, inside, rfl⟩ := List.getElem_of_mem mem
    have here : i < (List.replicate n element).length := h.conform.length_eq ▸ inside
    refine h.conform.getElem? (List.getElem?_eq_getElem inside) ?_
    rw [List.getElem?_eq_getElem here, List.getElem_replicate]
  refine ⟨.array given conform h.made, ?_⟩
  exact Value.conforms_ref_iff.2 (.inr ⟨_, rfl, RefType.isSubtypeOf_refl _⟩)

end Fits

/-- The items of an array belong to the element kinds of all kinds that the array belongs to. -/
theorem Kind.flowsInto_of_array {own element : Kind} {items : List Value} (ho : own.Over F.Has)
    (he : element.Over F.Has)
    (conforms : (Value.array own items).conforms (.arrayOf element) = true) :
    own.FlowsInto F.Has element := by
  obtain h | ⟨s, hs, below⟩ := Value.conforms_ref_iff.1 conforms
  · cases h
  · cases hs
    have inversion := RefType.isSubtypeOf_iff (RefType.over_array.2 ho) (RefType.over_array.2 he)
    rcases inversion.1 below with h | h | ⟨p, h, -⟩ | ⟨r, t, h, h', above⟩ | ⟨d, q, h, -⟩
    · cases h
      exact .refl own
    · cases h
    · cases h
    · cases h
      cases h'
      refine Kind.flowsInto_of_isViewableAs ho he (Kind.isViewableAs_strict_iff.2 ?_)
      exact .inr ⟨r, t, rfl, rfl, above⟩
    · cases h

/-- Code that may be run on the given arguments. -/
def Code.Takes (F : ClassLibrary) (K : Known) (code : Code) (args : List Value) : Prop :=
  match code with
  | .program signature p =>
    Blueprint.Typed F K ⟨signature, p⟩ ∧ Fits F K args signature.params
  | .action a => a.MadeOf F K ∧ ∀ v ∈ args, v.MadeOf F K

/-- A result of some code: a program returns what its signature says. -/
def Code.Yields (F : ClassLibrary) (code : Code) (K : Known) (v : Value) : Prop :=
  v.MadeOf F K ∧
    match code with
    | .program signature _ => v.conforms signature.ret = true
    | .action _ => True

/-- Two ways to run code that do the same, safely, on all code that takes its arguments, with all
that is at hand now and maybe more. -/
def Runner.Agree (F : ClassLibrary) (K : Known) (run run' : Runner) : Prop :=
  ∀ (K' : Known) (code : Code) (args : List Value), K.Grows K' → code.Takes F K' args →
    Exec.Agree F K' (run code args) (run' code args) (code.Yields F)

section

variable {run run' : Runner}

theorem Runner.Agree.mono (grows : K.Grows K') (agree : Runner.Agree F K run run') :
    Runner.Agree F K' run run' :=
  fun K'' code args grows' => agree K'' code args (grows.trans grows')

/-- A handle at hand may be called on values of its parameters. -/
theorem Runner.Agree.call (agree : Runner.Agree F K run run') {h : Handle} {args : List Value}
    (known : K (.handle h)) (fits : Fits F K args h.signature.params) :
    Exec.Agree F K (run.call h args) (run'.call h args) (OfKind F h.signature.ret) :=
  .ofKnowledge fun knowledge =>
    agree K (.program h.signature h.program) args (.refl K)
      ⟨(knowledge.handle h known).blueprint, fits⟩

namespace Step

/-- Slots that feed some kinds hold values of them. -/
theorem gather_fits {frame : List Value} {kinds wanted : List Kind} {slots : List Slot}
    (knowledge : Knowledge F K) (fits : Fits F K frame kinds)
    (feeds : Feeds F.Has kinds slots wanted) :
    ∃ vs, gather frame slots = pure vs ∧ Fits F K vs wanted := by
  induction feeds with
  | nil => exact ⟨[], rfl, .nil⟩
  | cons here _ ih =>
    obtain ⟨own, found, flows⟩ := here
    obtain ⟨v, hv, made, conforms⟩ := fits.getElem? found
    obtain ⟨vs, hvs, rest⟩ := ih
    refine ⟨v :: vs, ?_, .cons made (flows v (Value.over_of_madeOf knowledge made) conforms) rest⟩
    rw [gather, hv, hvs]
    rfl

/-- Whatever slots are asked for, what they hold is made of what is at hand. -/
theorem gather_madeOf {frame : List Value} {slots : List Slot}
    (made : ∀ v ∈ frame, v.MadeOf F K) :
    Exec.Safe F K (gather frame slots) fun K' vs => ∀ v ∈ vs, v.MadeOf F K' := by
  induction slots generalizing K with
  | nil => exact .pure (List.forall_mem_nil _)
  | cons slot rest ih =>
    rw [gather]
    refine Exec.Agree.bind (P := fun K' v => v.MadeOf F K')
      (.ofOption fun v found => made v (List.mem_of_getElem? found)) fun K₁ v grows _ here => ?_
    refine (ih fun w mem => (made w mem).mono grows).bind fun K₂ vs grows _ others => ?_
    exact .pure (List.forall_mem_cons.2 ⟨here.mono grows, others⟩)

theorem checkResult_safe {kind : Kind} {v : Value} (made : v.MadeOf F K) :
    Exec.Safe F K (checkResult kind v) (OfKind F kind) := by
  unfold checkResult
  split
  · next void =>
    rw [Kind.isVoid_iff.1 void]
    exact .pure ⟨.plain rfl, rfl⟩
  · split
    · next conforms => exact .pure ⟨made, conforms⟩
    · exact .refuseStatic rfl

theorem spreadItem_safe {index length : Nat} {v : Value} {element : Kind}
    (knowledge : Knowledge F K) (given : element.Over F.Has) (made : v.MadeOf F K)
    (conforms : v.conforms (.arrayOf element) = true) :
    Exec.Safe F K (spreadItem index length v) (OfKind F element) := by
  unfold spreadItem
  split
  · next own items =>
    obtain ⟨ownOver, each, madeOf⟩ := Value.madeOf_array_iff.1 made
    split
    · refine .ofOption fun item found => ?_
      have mem := List.mem_of_getElem? found
      refine ⟨madeOf item mem, ?_⟩
      exact Kind.flowsInto_of_array ownOver given conforms item
        (Value.over_of_madeOf knowledge (madeOf item mem)) (each item mem)
    · exact .refuseStatic rfl
  · exact .refuseStatic rfl

end Step
end
end TypedHandles
