import TypedHandles.Proofs.WordAdapters

/-!
Positions, indices and counts of any size are answered: an edit of a signature or an adapter of a
handle gives a result or reports a failure, and refuses what is out of range as an illegal argument
(`positions_answered`). The machine's own arithmetic never gets in between.

There is one exception. A collector makes the lists of its element kinds and of all its parameters
before it compares their number with anything, and for more parameters than a list can hold it is
not answered (`positions_answered_except`).
-/
namespace TypedHandles
namespace Word

open Signature (maxArity)
open Blueprint (longestKindList)

variable {α β : Type} {target h : Handle} {own s : Signature} {pos count i : Nat}

/-! Positions beyond the parameters. -/

theorem requirePositions_of_outside (outside : s.arity < pos + count) :
    Blueprint.requirePositions s pos count =
      Checked.refuse (.illegalArgument (.positions count pos s)) := by
  unfold Blueprint.requirePositions
  rw [if_pos]
  omega

/-- A loop of checks ends at the first one that refuses. -/
theorem forIn_refused {check : α → Checked Unit} {e : Halt} {front back : List α} {a : α}
    (passed : ∀ b ∈ front, check b = .ok ()) (refused : check a = .error e) :
    forIn (front ++ a :: back) PUnit.unit
      (fun b _ => do check b; return ForInStep.yield PUnit.unit) = Except.error e := by
  induction front with
  | nil =>
    rw [List.nil_append, List.forIn_cons, refused]
    rfl
  | cons b rest ih =>
    obtain ⟨here, others⟩ := List.forall_mem_cons.1 passed
    rw [List.cons_append, List.forIn_cons, here]
    exact ih others

/-- Whether parameter `source` of a signature can be argument `slot`. -/
def Feeds (own s : Signature) (slot source : Nat) : Prop :=
  ∃ supplied wanted, s.params[source]? = some supplied ∧ own.params[slot]? = some wanted ∧
    (supplied == wanted) = true

theorem requireFeed_of_feeds {slot source : Nat} (feeds : Feeds own s slot source) :
    Blueprint.requireFeed own s slot source = .ok () := by
  obtain ⟨supplied, wanted, found, found', same⟩ := feeds
  have inside : source < s.arity := (List.getElem?_eq_some_iff.1 found).1
  rw [Blueprint.requireFeed, if_neg (Nat.not_le.2 inside), found, found']
  simp [Checked.ofOption, bne, same, bind, Except.bind, pure, Except.pure]

theorem permuteArguments_of_outside {front back : List Nat} {source : Nat}
    (length : (front ++ source :: back).length = target.signature.arity)
    (ret : (s.ret == target.signature.ret) = true)
    (fed : ∀ j slot, front[j]? = some slot → Feeds target.signature s j slot)
    (outside : s.arity ≤ source) :
    Blueprint.permuteArguments target s (front ++ source :: back) =
      Checked.refuse (.illegalArgument (.reorderIndex source s)) := by
  have refused : Blueprint.requireFeed target.signature s front.length source =
      Checked.refuse (.illegalArgument (.reorderIndex source s)) := by
    rw [Blueprint.requireFeed, if_pos outside]
    rfl
  have passed : ∀ a ∈ front.mapIdx Prod.mk,
      Blueprint.requireFeed target.signature s a.1 a.2 = .ok () := by
    intro a mem
    obtain ⟨j, inside, rfl⟩ := List.mem_mapIdx.1 mem
    exact requireFeed_of_feeds (fed j _ (List.getElem?_eq_getElem inside))
  unfold Blueprint.permuteArguments
  rw [if_neg (by simpa [bne] using length), if_neg (by simpa [bne] using ret), List.mapIdx_append,
    List.mapIdx_cons, Nat.zero_add]
  have loop := @forIn_refused _
    (fun a : Nat × Nat => Blueprint.requireFeed target.signature s a.1 a.2) _ _
    (back.mapIdx fun j source => (j + 1 + front.length, source)) (front.length, source)
    passed refused
  show (forIn _ PUnit.unit (fun (a : Nat × Nat) _ => do
    Blueprint.requireFeed target.signature s a.1 a.2
    return ForInStep.yield PUnit.unit) >>= _) = _
  rw [loop]
  rfl

end Word

/-! Positions of any size. -/

open Signature (maxArity)
open Blueprint (longestKindList)

/-- A computation that refuses an argument as illegal. -/
def RefusesArgument {α : Type} (x : Checked α) : Prop :=
  ∃ misuse, x = Checked.refuse (.illegalArgument misuse)

/-- The same of a computation that builds handles. -/
def RefusesToBuild {α : Type} (x : Build α) : Prop :=
  ∃ misuse, x = Build.refuse (.illegalArgument misuse)

theorem RefusesArgument.bind {α β : Type} {x : Checked α} {f : α → Checked β}
    (h : RefusesArgument x) : RefusesArgument (x >>= f) := by
  obtain ⟨misuse, rfl⟩ := h
  exact ⟨misuse, rfl⟩

theorem RefusesToBuild.bind {α β : Type} {x : Checked α} {f : α → Build β}
    (h : RefusesArgument x) : RefusesToBuild (Build.ofChecked x >>= f) := by
  obtain ⟨misuse, rfl⟩ := h
  exact ⟨misuse, rfl⟩

theorem RefusesToBuild.allocate {b : Checked Blueprint} (h : RefusesArgument b) :
    RefusesToBuild (Build.allocate b) := by
  obtain ⟨misuse, rfl⟩ := h
  exact ⟨misuse, rfl⟩

/-- How the edits of a signature answer words: as over exact numbers, with a signature or a failure,
and with an illegal argument where a position is out of range. -/
structure Signature.AnswersPositions (s : Signature) : Prop where
  replaceParams : ∀ (start stop : UInt64) (kinds : List Kind),
    maxArity + kinds.length ≤ longestKindList →
    Answers (fun _ => True) (Word.replaceParams s start.toNat stop.toNat kinds)
      (Checked.ofExcept (s.replaceParams start.toNat stop.toNat kinds)) ∧
    (start > stop ∨ s.arity < stop.toNat →
      RefusesArgument (Checked.ofExcept (s.replaceParams start.toNat stop.toNat kinds)))
  dropParams : ∀ start stop : UInt64,
    Answers (fun _ => True) (Word.dropParams s start.toNat stop.toNat)
      (Checked.ofExcept (s.dropParams start.toNat stop.toNat)) ∧
    (start > stop ∨ s.arity < stop.toNat →
      RefusesArgument (Checked.ofExcept (s.dropParams start.toNat stop.toNat)))
  insertParams : ∀ (pos : UInt64) (kinds : List Kind),
    maxArity + kinds.length ≤ longestKindList →
    Answers (fun _ => True) (Word.insertParams s pos.toNat kinds)
      (Checked.ofExcept (s.insertParams pos.toNat kinds)) ∧
    (s.arity < pos.toNat →
      RefusesArgument (Checked.ofExcept (s.insertParams pos.toNat kinds)))
  changeParam : ∀ (index : UInt64) (kind : Kind),
    Answers (fun _ => True) (Word.changeParam s index.toNat kind)
      (Checked.ofExcept (s.changeParam index.toNat kind)) ∧
    (s.arity ≤ index.toNat →
      RefusesArgument (Checked.ofExcept (s.changeParam index.toNat kind)))

/-- How the adapters of a handle answer words. All but the collector answer all of them. -/
structure Handle.AnswersPositions (h : Handle) : Prop where
  insertArguments : ∀ (pos : UInt64) (values : List Value),
    Answers (fun _ => True) (Word.insertArguments h pos.toNat values)
      (Blueprint.insertArguments h pos.toNat values) ∧
    (h.arity < pos.toNat + values.length →
      RefusesToBuild (Construction.insertArguments h pos.toNat values).build)
  bindArgument : ∀ (pos : UInt64) (v : Value),
    Answers (fun _ => True) (Word.insertArguments h pos.toNat [v])
      (Blueprint.insertArguments h pos.toNat [v]) ∧
    (h.arity ≤ pos.toNat → RefusesToBuild (Construction.bindArgument h pos.toNat v).build)
  dropArguments : ∀ (pos : UInt64) (kinds : List Kind),
    maxArity + kinds.length ≤ longestKindList →
    Word.Builds (fun _ => True) (Word.dropArguments h pos.toNat kinds)
      (Construction.dropArguments h pos.toNat kinds).build ∧
    (h.arity < pos.toNat →
      RefusesToBuild (Construction.dropArguments h pos.toNat kinds).build)
  dropArgumentsToMatch : ∀ (skip pos : UInt64) (kinds : List Kind),
    maxArity + kinds.length ≤ longestKindList →
    Word.Builds (fun _ => True) (Word.dropArgumentsToMatch h skip.toNat kinds pos.toNat)
      (Construction.dropArgumentsToMatch h skip.toNat kinds pos.toNat).build ∧
    (h.arity < skip.toNat ∨ kinds.length < pos.toNat + (h.arity - skip.toNat) →
      RefusesToBuild (Construction.dropArgumentsToMatch h skip.toNat kinds pos.toNat).build)
  /-- The first index that is out of range is illegal, when those before it can be fed. -/
  permuteArguments : ∀ (s : Signature) (reorder : List UInt64),
    Ends Halt.IsFailure (fun _ => True)
      (Blueprint.permuteArguments h s (reorder.map UInt64.toNat)) ∧
    ∀ front source back, reorder = front ++ source :: back → reorder.length = h.arity →
      (s.ret == h.signature.ret) = true →
      (∀ j slot, front[j]? = some slot → Word.Feeds h.signature s j slot.toNat) →
      s.arity ≤ source.toNat →
      RefusesToBuild (Construction.permuteArguments h s (reorder.map UInt64.toNat)).build
  filterArguments : ∀ (pos : UInt64) (filters : List (Option Handle)),
    Answers (fun _ => True) (Word.filterArguments h pos.toNat filters)
      (Blueprint.filterArguments h pos.toNat filters) ∧
    (h.arity < pos.toNat + filters.length →
      RefusesToBuild (Construction.filterArguments h pos.toNat filters).build)
  collectArguments : ∀ (pos : UInt64) (filter : Handle), filter.signature.WellFormed →
    Answers (fun _ => True) (Word.collectArguments h pos.toNat filter)
      (Blueprint.collectArguments h pos.toNat filter) ∧
    (h.arity < pos.toNat + Word.fed filter →
      RefusesToBuild (Construction.collectArguments h pos.toNat filter).build)
  foldArguments : ∀ (pos : UInt64) (combiner : Handle), combiner.signature.WellFormed →
    Answers (fun _ => True) (Word.foldArguments h pos.toNat combiner)
      (Blueprint.foldArguments h pos.toNat combiner) ∧
    (h.arity < pos.toNat + (Word.fed combiner + combiner.arity) →
      RefusesToBuild (Construction.foldArguments h pos.toNat combiner).build)
  asSpreader : ∀ (array : Kind) (count : UInt64),
    Answers (fun _ => True) (Word.spreader h array count.toNat)
      (Blueprint.spreader h array count.toNat) ∧
    (array.element?.isNone = true ∨ h.arity < count.toNat →
      RefusesToBuild (Construction.asSpreader h array count.toNat).build)
  /-- A collector answers every count up to the length of the longest list, which holds the other
  parameters as well. -/
  asCollector : ∀ (array : Kind) (count : UInt64),
    Word.collector h array count.toNat = Blueprint.collector h array count.toNat ∧
    (h.arity - 1 + count.toNat ≤ longestKindList →
      Answers (fun _ => True) (Word.collector h array count.toNat)
        (Blueprint.collector h array count.toNat)) ∧
    (array.element?.isNone = true ∨ h.arity = 0 →
      RefusesToBuild (Construction.asCollector h array count.toNat).build)
  /-- Too many parameters are refused for their number, up to the length of the longest list. -/
  asCollector_many : ∀ (array : Kind) (count : UInt64), array.element?.isSome = true →
    0 < h.arity → maxArity < h.arity - 1 + count.toNat →
    h.arity - 1 + count.toNat ≤ longestKindList →
    (Construction.asCollector h array count.toNat).build =
      Build.refuse (.tooManyParameters (h.arity - 1 + count.toNat) maxArity)
  /-- Beyond that there is no answer. -/
  asCollector_more : ∀ (array : Kind) (count : UInt64), array.element?.isSome = true →
    0 < h.arity → longestKindList < h.arity - 1 + count.toNat →
    Word.collector h array count.toNat = .error .stuck ∧
      (Construction.asCollector h array count.toNat).build = Build.ofChecked (.error .stuck)

theorem Signature.replaceParams_of_outside {s : Signature} {start stop : Nat} (kinds : List Kind)
    (outside : start > stop ∨ s.arity < stop) :
    RefusesArgument (Checked.ofExcept (s.replaceParams start stop kinds)) := by
  refine ⟨.parameterRange start stop s, ?_⟩
  rw [replaceParams, if_pos outside]
  rfl

theorem Signature.answersPositions {s : Signature} (wf : s.WellFormed) : s.AnswersPositions where
  replaceParams start stop kinds fits := by
    have limit := wf.arity_le
    have room : s.arity - (stop.toNat - start.toNat) + kinds.length ≤ longestKindList := by
      unfold arity
      omega
    exact ⟨(Word.replaceParams_answers room).imp fun _ _ => trivial, replaceParams_of_outside kinds⟩
  dropParams start stop :=
    ⟨(Word.replaceParams_answers_few wf (Nat.zero_le _)).imp fun _ _ => trivial,
      replaceParams_of_outside []⟩
  insertParams pos kinds fits := by
    have limit := wf.arity_le
    have room : s.arity - (pos.toNat - pos.toNat) + kinds.length ≤ longestKindList := by
      unfold arity
      omega
    exact ⟨(Word.replaceParams_answers room).imp fun _ _ => trivial,
      fun outside => replaceParams_of_outside kinds (.inr outside)⟩
  changeParam index kind := by
    refine ⟨Word.changeParam_answers wf kind, fun outside => ?_⟩
    unfold Signature.changeParam
    split
    · exact replaceParams_of_outside [kind] (.inr (Nat.lt_succ_of_le outside))
    · exact ⟨_, rfl⟩

namespace Handle

variable {h : Handle}

theorem exists_getLast?_of_pos (present : 0 < h.arity) :
    ∃ trailing, h.signature.params.getLast? = some trailing :=
  Option.isSome_iff_exists.1 (List.getLast?_isSome.2 (List.ne_nil_of_length_pos present))

theorem refusesToBuild_dropArguments {pos : Nat} (kinds : List Kind) (outside : h.arity < pos) :
    RefusesToBuild (h.dropArguments pos kinds) :=
  .bind ⟨_, Word.requirePositions_of_outside outside⟩

theorem refusesToBuild_dropArgumentsToMatch {skip pos : Nat} {kinds : List Kind}
    (outside : h.arity < skip ∨ kinds.length < pos + (h.arity - skip)) :
    RefusesToBuild (h.dropArgumentsToMatch skip kinds pos) := by
  by_cases skipped : h.arity < skip
  · exact .bind ⟨_, Word.requirePositions_of_outside skipped⟩
  · have within : Blueprint.requirePositions h.signature skip 0 = .ok () :=
      if_neg (not_or.2 ⟨skipped, Nat.not_lt_zero _⟩)
    have kept : (h.signature.paramsFrom skip).length = h.arity - skip := List.length_drop
    have beyond : pos > kinds.length ∨
        (h.signature.paramsFrom skip).length > kinds.length - pos := by omega
    unfold dropArgumentsToMatch
    dsimp only
    rw [within, if_pos beyond]
    exact ⟨_, rfl⟩

theorem answersPositions (wf : h.signature.WellFormed) : h.AnswersPositions where
  insertArguments pos values :=
    ⟨Word.insertArguments_answers wf values, fun outside =>
      .allocate (.bind ⟨_, Word.requirePositions_of_outside outside⟩)⟩
  bindArgument pos v :=
    ⟨Word.insertArguments_answers wf [v], fun outside =>
      .allocate (.bind ⟨_, Word.requirePositions_of_outside (Nat.lt_succ_of_le outside)⟩)⟩
  dropArguments pos kinds fits :=
    ⟨(Word.dropArguments_builds wf fits).imp fun _ _ => trivial,
      refusesToBuild_dropArguments kinds⟩
  dropArgumentsToMatch skip pos kinds fits :=
    ⟨(Word.dropArgumentsToMatch_builds wf fits).imp fun _ _ => trivial,
      refusesToBuild_dropArgumentsToMatch⟩
  permuteArguments s reorder := by
    refine ⟨Word.permuteArguments_ends h s _, ?_⟩
    rintro front source back rfl length ret fed outside
    rw [← List.length_map UInt64.toNat] at length
    rw [List.map_append, List.map_cons] at length ⊢
    refine .allocate ⟨_, Word.permuteArguments_of_outside length ret (fun j slot found => ?_)
      outside⟩
    rw [List.getElem?_map] at found
    obtain ⟨index, here, rfl⟩ := Option.map_eq_some_iff.1 found
    exact fed j index here
  filterArguments pos filters :=
    ⟨Word.filterArguments_answers wf filters, fun outside =>
      .allocate (.bind ⟨_, Word.requirePositions_of_outside outside⟩)⟩
  collectArguments pos filter filterWf :=
    ⟨Word.collectArguments_answers wf filterWf, fun outside =>
      .allocate (.bind ⟨_, Word.requirePositions_of_outside outside⟩)⟩
  foldArguments pos combiner combinerWf :=
    ⟨Word.foldArguments_answers wf combinerWf, fun outside =>
      .allocate (.bind ⟨_, Word.requirePositions_of_outside outside⟩)⟩
  asSpreader array count := by
    refine ⟨Word.spreader_answers wf array _, fun outside => .allocate ?_⟩
    cases kind : array.element? with
    | none => exact .bind ⟨.notArray array, by rw [Blueprint.elementOf, kind]; rfl⟩
    | some element =>
      rw [kind] at outside
      have many : count.toNat > h.signature.arity := outside.resolve_left nofun
      unfold Blueprint.spreader Blueprint.elementOf
      rw [kind]
      exact ⟨.spreadCount count.toNat h.signature, if_pos many⟩
  asCollector array count := by
    refine ⟨Word.collector_eq h array _, Word.collector_answers array, fun outside => .allocate ?_⟩
    cases kind : array.element? with
    | none => exact .bind ⟨.notArray array, by rw [Blueprint.elementOf, kind]; rfl⟩
    | some element =>
      rw [kind] at outside
      have none : h.signature.params = [] :=
        List.eq_nil_of_length_eq_zero (outside.resolve_left nofun)
      unfold Blueprint.collector Blueprint.elementOf
      rw [kind]
      dsimp only
      rw [none]
      exact ⟨.nothingToCollect h.signature, rfl⟩
  asCollector_many array count isArray present many few := by
    obtain ⟨element, kind⟩ := Option.isSome_iff_exists.1 isArray
    obtain ⟨trailing, last⟩ := exists_getLast?_of_pos present
    show Build.allocate _ = _
    rw [Word.collector_of_many kind last few many]
    rfl
  asCollector_more array count isArray present more := by
    obtain ⟨element, kind⟩ := Option.isSome_iff_exists.1 isArray
    obtain ⟨trailing, last⟩ := exists_getLast?_of_pos present
    obtain ⟨word, exact⟩ := Word.collector_of_more kind last more
    refine ⟨word, ?_⟩
    show Build.allocate _ = _
    rw [exact]
    rfl

end Handle

/-- Positions of any size are answered. For every signature and every handle, each edit and each
adapter computes over 64-bit words what it computes over exact numbers, and ends with a result or a
failure; a position out of range is an illegal argument; and a collector of too many parameters is
refused for their number, up to the length of the longest list. -/
theorem positions_answered {s : Signature} (wf : s.WellFormed) {h : Handle}
    (handleWf : h.signature.WellFormed) : s.AnswersPositions ∧ h.AnswersPositions :=
  ⟨Signature.answersPositions wf, Handle.answersPositions handleWf⟩

/-- A handle on a host function from an array of numbers to a number. -/
def summing : Handle :=
  let signature : Signature := ⟨.int, [.arrayOf .int]⟩
  ⟨0, signature, (Blueprint.ofAction signature (.host ⟨0, "sum"⟩)).program, false⟩

/-- The greatest position is refused, and so is a collector of as many parameters as a list has. -/
theorem positions_answered_greatest :
    ∃ greatest longest : UInt64,
      greatest.toNat = UInt64.size - 1 ∧ longest.toNat = longestKindList ∧
      summing.signature.WellFormed ∧
      RefusesToBuild (Construction.bindArgument summing greatest.toNat (.int 1)).build ∧
      RefusesToBuild (Construction.dropArguments summing greatest.toNat [.int]).build ∧
      RefusesToBuild (Construction.asSpreader summing (.arrayOf .int) greatest.toNat).build ∧
      (Construction.asCollector summing (.arrayOf .int) longest.toNat).build =
        Build.refuse (.tooManyParameters longestKindList maxArity) := by
  have wf : summing.signature.WellFormed := ⟨by decide, by simp [summing, Kind.arrayOf]⟩
  obtain ⟨-, answers⟩ := positions_answered wf wf
  have greatest : (18446744073709551615 : UInt64).toNat = UInt64.size - 1 := rfl
  have longest : (576460752303423487 : UInt64).toNat = longestKindList := rfl
  have arity : summing.arity = 1 := rfl
  refine ⟨18446744073709551615, 576460752303423487, greatest, longest, wf,
    (answers.bindArgument _ _).2 ?_, (answers.dropArguments _ _ (by decide)).2 ?_,
    (answers.asSpreader _ _).2 (.inr ?_), ?_⟩
  · rw [arity, greatest]
    decide
  · rw [arity, greatest]
    decide
  · rw [arity, greatest]
    decide
  · have many := answers.asCollector_many (.arrayOf .int) 576460752303423487 rfl Nat.one_pos
    rw [arity, longest, Nat.sub_self, Nat.zero_add] at many
    rw [longest]
    exact many (by decide) (Nat.le_refl _)

/-- The greatest count is not answered by a collector, of an array kind and for a handle with a
trailing parameter: neither over words nor over exact numbers. -/
theorem positions_answered_except :
    Word.collector summing (.arrayOf .int) (UInt64.size - 1) = .error .stuck ∧
    ∀ t, (Construction.asCollector summing (.arrayOf .int) (UInt64.size - 1)).build t =
      (.error .stuck, t) := by
  have more : longestKindList < summing.signature.arity - 1 + (UInt64.size - 1) := by decide
  obtain ⟨word, exact⟩ := @Word.collector_of_more summing _ (.arrayOf .int) .int (.arrayOf .int)
    rfl rfl more
  refine ⟨word, fun t => ?_⟩
  rw [Construction.build, exact]
  rfl

end TypedHandles
