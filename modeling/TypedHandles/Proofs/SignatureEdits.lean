import TypedHandles.Signature

/-!
Making and editing signatures, answer by answer. `Signature.make` has two reasons to refuse, and the
number of parameters goes before the first `void` one; `Signature.replaceParams` has one more, a
range that is not one of parameters, and it goes first (`Signature.Replaces`).

An edit is argued about on the parameters written as those in front of the range, those in it and
those behind it (`Signature.replaceParams_of_parts`).
-/
namespace TypedHandles

/-! The first item of a list. -/

/-- The first item of a list of which something holds, with its position. -/
def First {α : Type} (P : α → Prop) (xs : List α) (i : Nat) (x : α) : Prop :=
  xs[i]? = some x ∧ P x ∧ ∀ j < i, ∀ y, xs[j]? = some y → ¬ P y

theorem First.congr {α : Type} {P Q : α → Prop} {xs : List α} {i : Nat} {x : α}
    (same : ∀ x, P x ↔ Q x) : First P xs i x ↔ First Q xs i x := by
  rw [funext fun x => propext (same x)]

theorem findIdx?_eq_some_iff_first {α : Type} {p : α → Bool} {xs : List α} {i : Nat} :
    xs.findIdx? p = some i ↔ ∃ x, First (fun x => p x = true) xs i x := by
  rw [List.findIdx?_eq_some_iff_getElem]
  constructor
  · rintro ⟨inside, holds, before⟩
    refine ⟨xs[i], List.getElem?_eq_getElem inside, holds, fun j lt y found => ?_⟩
    obtain ⟨_, rfl⟩ := List.getElem?_eq_some_iff.1 found
    exact before j lt
  · rintro ⟨x, found, holds, before⟩
    obtain ⟨inside, rfl⟩ := List.getElem?_eq_some_iff.1 found
    exact ⟨inside, holds, fun j lt =>
      before j lt _ (List.getElem?_eq_getElem (Nat.lt_trans lt inside))⟩

theorem find?_eq_some_iff_first {α : Type} {p : α → Bool} {xs : List α} {x : α} :
    xs.find? p = some x ↔ ∃ i, First (fun x => p x = true) xs i x := by
  rw [List.find?_eq_some_iff_getElem]
  constructor
  · rintro ⟨holds, i, inside, rfl, before⟩
    refine ⟨i, List.getElem?_eq_getElem inside, holds, fun j lt y found => ?_⟩
    obtain ⟨_, rfl⟩ := List.getElem?_eq_some_iff.1 found
    simpa using before j lt
  · rintro ⟨i, found, holds, before⟩
    obtain ⟨inside, rfl⟩ := List.getElem?_eq_some_iff.1 found
    refine ⟨holds, i, inside, rfl, fun j lt => ?_⟩
    simpa using before j lt _ (List.getElem?_eq_getElem (Nat.lt_trans lt inside))

namespace Signature

variable {ret : Kind} {params kinds front removed back : List Kind} {s t : Signature}
  {start stop index count limit : Nat} {misuse : Misuse}

/-! Making a signature. -/

theorem wellFormed_iff : s.WellFormed ↔ s.arity ≤ maxArity ∧ .void ∉ s.params :=
  ⟨fun wf => ⟨wf.arity_le, fun mem => wf.no_void _ mem rfl⟩,
    fun h => ⟨h.1, fun _ mem void => h.2 (void ▸ mem)⟩⟩

theorem findIdx?_isVoid_eq_some_iff :
    kinds.findIdx? Kind.isVoid = some index ↔ First (· = .void) kinds index .void := by
  rw [findIdx?_eq_some_iff_first]
  constructor
  · rintro ⟨k, first⟩
    have first := (First.congr fun _ => Kind.isVoid_iff).1 first
    rwa [first.2.1] at first
  · intro first
    exact ⟨.void, (First.congr fun _ => Kind.isVoid_iff).2 first⟩

theorem make_eq_tooMany_iff : make ret params = .error (.tooManyParameters count limit) ↔
    maxArity < params.length ∧ count = params.length ∧ limit = maxArity := by
  unfold make
  split
  · next many =>
    rw [Except.error.injEq, Failure.tooManyParameters.injEq]
    exact ⟨fun h => ⟨many, h.1.symm, h.2.symm⟩, fun h => ⟨h.2.1.symm, h.2.2.symm⟩⟩
  · next few =>
    refine ⟨fun h => ?_, fun h => absurd h.1 few⟩
    split at h <;> cases h

theorem make_eq_void_iff : make ret params = .error (.voidParameter index) ↔
    params.length ≤ maxArity ∧ First (· = .void) params index .void := by
  rw [← findIdx?_isVoid_eq_some_iff]
  unfold make
  split
  · next many => exact ⟨nofun, fun h => absurd h.1 (Nat.not_le.2 many)⟩
  · next few =>
    cases params.findIdx? Kind.isVoid with
    | some i =>
      rw [Except.error.injEq, Failure.voidParameter.injEq, Option.some.injEq]
      exact ⟨fun h => ⟨Nat.not_lt.1 few, h⟩, And.right⟩
    | none => exact ⟨nofun, nofun⟩

theorem make_ne_illegal : make ret params ≠ .error (.illegalArgument misuse) := by
  unfold make
  intro h
  split at h
  · cases h
  · split at h <;> cases h

theorem WellFormed.make_eq (wf : s.WellFormed) : make s.ret s.params = .ok s := by
  cases s
  exact make_eq_ok_iff.2 ⟨rfl, wf⟩

/-! Replacing parameters. -/

/-- The parameters from one position up to another are a range of parameters. -/
def Spans (s : Signature) (start stop : Nat) : Prop := start ≤ stop ∧ stop ≤ s.arity

/-- The parameters there are when those from `start` up to `stop` are replaced by `kinds`. -/
def spliced (s : Signature) (start stop : Nat) (kinds : List Kind) : List Kind :=
  s.params.take start ++ kinds ++ s.params.drop stop

theorem not_spans_iff : ¬ s.Spans start stop ↔ stop < start ∨ s.arity < stop := by
  unfold Spans
  omega

theorem Spans.length_spliced (within : s.Spans start stop) (kinds : List Kind) :
    (s.spliced start stop kinds).length = s.arity - (stop - start) + kinds.length := by
  obtain ⟨order, inside⟩ := within
  unfold arity at *
  simp only [spliced, List.length_append, List.length_take, List.length_drop]
  omega

theorem Spans.replaceParams_eq (within : s.Spans start stop) (kinds : List Kind) :
    s.replaceParams start stop kinds = make s.ret (s.spliced start stop kinds) :=
  if_neg fun outside => not_spans_iff.2 outside within

theorem replaceParams_of_not_spans (outside : ¬ s.Spans start stop) (kinds : List Kind) :
    s.replaceParams start stop kinds =
      .error (.illegalArgument (.parameterRange start stop s)) :=
  if_pos (not_spans_iff.1 outside)

theorem replaceParams_eq_illegal_iff :
    s.replaceParams start stop kinds = .error (.illegalArgument misuse) ↔
      ¬ s.Spans start stop ∧ misuse = .parameterRange start stop s := by
  by_cases within : s.Spans start stop
  · rw [within.replaceParams_eq]
    exact ⟨fun h => absurd h make_ne_illegal, fun h => absurd within h.1⟩
  · rw [replaceParams_of_not_spans within, Except.error.injEq, Failure.illegalArgument.injEq]
    exact ⟨fun h => ⟨within, h.symm⟩, fun h => h.2.symm⟩

theorem replaceParams_eq_tooMany_iff :
    s.replaceParams start stop kinds = .error (.tooManyParameters count limit) ↔
      s.Spans start stop ∧ maxArity < s.arity - (stop - start) + kinds.length ∧
        count = s.arity - (stop - start) + kinds.length ∧ limit = maxArity := by
  by_cases within : s.Spans start stop
  · rw [within.replaceParams_eq, make_eq_tooMany_iff, within.length_spliced]
    exact (and_iff_right within).symm
  · rw [replaceParams_of_not_spans within]
    exact ⟨nofun, fun h => absurd h.1 within⟩

theorem replaceParams_eq_void_iff :
    s.replaceParams start stop kinds = .error (.voidParameter index) ↔
      s.Spans start stop ∧ s.arity - (stop - start) + kinds.length ≤ maxArity ∧
        First (· = .void) (s.spliced start stop kinds) index .void := by
  by_cases within : s.Spans start stop
  · rw [within.replaceParams_eq, make_eq_void_iff, within.length_spliced]
    exact (and_iff_right within).symm
  · rw [replaceParams_of_not_spans within]
    exact ⟨nofun, fun h => absurd h.1 within⟩

theorem replaceParams_eq_ok_iff : s.replaceParams start stop kinds = .ok t ↔
    s.Spans start stop ∧ t = ⟨s.ret, s.spliced start stop kinds⟩ ∧ t.WellFormed := by
  by_cases within : s.Spans start stop
  · rw [within.replaceParams_eq, make_eq_ok_iff]
    exact (and_iff_right within).symm
  · rw [replaceParams_of_not_spans within]
    exact ⟨nofun, fun h => absurd h.1 within⟩

/-- How replacing parameters is answered. The range goes first, then the number of parameters there
would be, and then the first `void` one among them. -/
structure Replaces (s : Signature) (start stop : Nat) (kinds : List Kind) : Prop where
  illegal : ∀ misuse, s.replaceParams start stop kinds = .error (.illegalArgument misuse) ↔
    (stop < start ∨ s.arity < stop) ∧ misuse = .parameterRange start stop s
  tooMany : ∀ count limit,
    s.replaceParams start stop kinds = .error (.tooManyParameters count limit) ↔
      s.Spans start stop ∧ maxArity < s.arity - (stop - start) + kinds.length ∧
        count = s.arity - (stop - start) + kinds.length ∧ limit = maxArity
  void : ∀ index, s.replaceParams start stop kinds = .error (.voidParameter index) ↔
    s.Spans start stop ∧ s.arity - (stop - start) + kinds.length ≤ maxArity ∧
      First (· = .void) (s.spliced start stop kinds) index .void
  done : ∀ t, s.replaceParams start stop kinds = .ok t ↔
    s.Spans start stop ∧ s.arity - (stop - start) + kinds.length ≤ maxArity ∧
      .void ∉ s.spliced start stop kinds ∧ t = ⟨s.ret, s.spliced start stop kinds⟩

theorem replaces (s : Signature) (start stop : Nat) (kinds : List Kind) :
    s.Replaces start stop kinds where
  illegal _ := by rw [replaceParams_eq_illegal_iff, not_spans_iff]
  tooMany _ _ := replaceParams_eq_tooMany_iff
  void _ := replaceParams_eq_void_iff
  done t := by
    rw [replaceParams_eq_ok_iff]
    refine and_congr_right fun within => ?_
    rw [← within.length_spliced, ← and_assoc, and_comm]
    refine and_congr_left fun made => ?_
    rw [made, wellFormed_iff]
    rfl

/-- New parameters can be any kinds but `void`, if there are not too many in the end. -/
theorem WellFormed.spliced (wf : s.WellFormed) (nonVoid : ∀ k ∈ kinds, k ≠ .void)
    (few : (s.spliced start stop kinds).length ≤ maxArity) :
    WellFormed ⟨ret, s.spliced start stop kinds⟩ := by
  refine ⟨few, fun k mem => ?_⟩
  rcases List.mem_append.1 mem with mem | mem
  · rcases List.mem_append.1 mem with mem | mem
    · exact wf.no_void k (List.mem_of_mem_take mem)
    · exact nonVoid k mem
  · exact wf.no_void k (List.mem_of_mem_drop mem)

/-- Parameters can always be dropped. -/
theorem WellFormed.dropParams (wf : s.WellFormed) (order : start ≤ stop) (inside : stop ≤ s.arity) :
    s.dropParams start stop = .ok ⟨s.ret, s.params.take start ++ s.params.drop stop⟩ := by
  have within : s.Spans start stop := ⟨order, inside⟩
  have few : (s.spliced start stop []).length ≤ maxArity := by
    rw [within.length_spliced]
    exact Nat.le_trans (Nat.sub_le _ _) wf.arity_le
  have rest : WellFormed ⟨s.ret, s.spliced start stop []⟩ := wf.spliced (List.forall_mem_nil _) few
  have dropped := replaceParams_eq_ok_iff.2 ⟨within, rfl, rest⟩
  rwa [Signature.spliced, List.append_nil] at dropped

/-! Parameters in parts. -/

/-- The parameters between those in front and those at the back are replaced. -/
theorem replaceParams_of_parts (parts : s.params = front ++ removed ++ back)
    (atStart : start = front.length) (atStop : stop = front.length + removed.length) :
    s.replaceParams start stop kinds = make s.ret (front ++ kinds ++ back) := by
  have arity : s.arity = front.length + removed.length + back.length := by
    rw [Signature.arity, parts, List.length_append, List.length_append]
  have within : s.Spans start stop := ⟨by omega, by omega⟩
  have ahead : s.params.take start = front := by
    rw [parts, atStart, List.append_assoc, List.take_left]
  have behind : s.params.drop stop = back := by
    rw [parts, atStop, ← List.length_append, List.drop_left]
  rw [within.replaceParams_eq, Signature.spliced, ahead, behind]

/-- The parameters from one position up to another. -/
def paramsBetween (s : Signature) (start stop : Nat) : List Kind :=
  (s.params.drop start).take (stop - start)

theorem take_params (s : Signature) (order : start ≤ stop) :
    s.params.take stop = s.params.take start ++ s.paramsBetween start stop := by
  rw [paramsBetween, ← List.take_add, Nat.add_sub_cancel' order]

theorem drop_params (s : Signature) (order : start ≤ stop) :
    s.params.drop start = s.paramsBetween start stop ++ s.params.drop stop := by
  have behind : s.params.drop stop = (s.params.drop start).drop (stop - start) := by
    rw [List.drop_drop, Nat.add_sub_cancel' order]
  rw [behind, paramsBetween, List.take_append_drop]

theorem length_take_params (inside : stop ≤ s.arity) : (s.params.take stop).length = stop :=
  List.length_take_of_le inside

theorem Spans.length_between (within : s.Spans start stop) :
    (s.paramsBetween start stop).length = stop - start := by
  obtain ⟨order, inside⟩ := within
  unfold arity at inside
  rw [paramsBetween, List.length_take, List.length_drop]
  omega

/-- What was replaced can take its place again. -/
theorem replaceParams_undone (wf : s.WellFormed)
    (replaced : s.replaceParams start stop kinds = .ok t) :
    t.replaceParams start (start + kinds.length) (s.paramsBetween start stop) = .ok s := by
  obtain ⟨⟨order, inside⟩, rfl, -⟩ := replaceParams_eq_ok_iff.1 replaced
  have ahead := length_take_params (Nat.le_trans order inside)
  have restored : s.params.take start ++ s.paramsBetween start stop ++ s.params.drop stop =
      s.params := by
    rw [← s.take_params order, List.take_append_drop]
  rw [replaceParams_of_parts rfl ahead.symm (congrArg (· + kinds.length) ahead.symm), restored]
  exact wf.make_eq

/-- Two ranges, one behind the other, are replaced in either order with one outcome. If the one
behind comes last, it is found where the other one's new length has moved it. -/
theorem replaceParams_comm {a b c d : Nat} {ks ls : List Kind} {u : Signature} (order : b ≤ c)
    (first : s.replaceParams a b ks = .ok t) (last : s.replaceParams c d ls = .ok u) :
    t.replaceParams (c - (b - a) + ks.length) (d - (b - a) + ks.length) ls =
      u.replaceParams a b ks := by
  obtain ⟨⟨ab, insideB⟩, rfl, -⟩ := replaceParams_eq_ok_iff.1 first
  obtain ⟨⟨cd, insideD⟩, rfl, -⟩ := replaceParams_eq_ok_iff.1 last
  have lengthA := length_take_params (Nat.le_trans ab insideB)
  have lengthAB := Spans.length_between ⟨ab, insideB⟩
  have lengthBC := Spans.length_between ⟨order, Nat.le_trans cd insideD⟩
  have lengthCD := Spans.length_between ⟨cd, insideD⟩
  have partsT : s.spliced a b ks = (s.params.take a ++ ks ++ s.paramsBetween b c) ++
      s.paramsBetween c d ++ s.params.drop d := by
    simp only [Signature.spliced, s.drop_params order, s.drop_params cd, List.append_assoc]
  have partsU : s.spliced c d ls = s.params.take a ++ s.paramsBetween a b ++
      (s.paramsBetween b c ++ ls ++ s.params.drop d) := by
    simp only [Signature.spliced, s.take_params order, s.take_params ab, List.append_assoc]
  have shifted : c - (b - a) + ks.length =
      (s.params.take a ++ ks ++ s.paramsBetween b c).length := by
    rw [List.length_append, List.length_append, lengthA, lengthBC]
    omega
  -- Both outcomes are those of making the five parts with `ks` and `ls` in the second and fourth.
  rw [replaceParams_of_parts partsT shifted (by rw [← shifted, lengthCD]; omega),
    replaceParams_of_parts partsU lengthA.symm (by rw [lengthA, lengthAB]; omega)]
  simp only [List.append_assoc]

end Signature
end TypedHandles
