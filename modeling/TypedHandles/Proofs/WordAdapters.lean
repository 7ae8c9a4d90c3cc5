import Mathlib.Data.List.Zip
import TypedHandles.Proofs.AdapterScoping
import TypedHandles.Proofs.Building
import TypedHandles.Proofs.SignatureEdits
import TypedHandles.Proofs.WordEdits

/-!
The adapters that take positions and counts, written with the arithmetic of a 64-bit machine.

Each follows the order in which its positions are computed and its lists are made, and each is the
adapter over exact numbers. A collector makes its list of kinds before it compares the count with
anything; it alone can run out of words, and does so for exactly the counts that no list of kinds
has.
-/
namespace TypedHandles
namespace Word

open Signature (maxArity)
open Blueprint (longestKindList)

/-! The adapters. -/

/-- Requires `count` positions from `pos` on to lie within the parameters. -/
def requirePositions (s : Signature) (pos count : Nat) : Checked Unit := do
  if pos > s.arity then Checked.refuse (.illegalArgument (.positions count pos s))
  let room ← sub s.arity pos
  if count > room then Checked.refuse (.illegalArgument (.positions count pos s))

/-- Computes something of each item and of the parameter that it stands for, from the parameter at
`pos + i` on. -/
def atParameters {α β : Type} (own : Signature) (pos : Nat) (f : α → Kind → Except Failure β) :
    Nat → List α → Checked (List β)
  | _, [] => .ok []
  | i, a :: rest => do
    let slot ← add pos i
    let kind ← item own.params slot
    let b ← Checked.ofExcept (f a kind)
    let others ← atParameters own pos f (i + 1) rest
    return b :: others

def insertArguments (target : Handle) (pos : Nat) (values : List Value) : Checked Blueprint := do
  let own := target.signature
  requirePositions own pos values.length
  let bound ← atParameters own pos Value.coerce 0 values
  let stop ← add pos bound.length
  let signature ← dropParams own pos stop
  let arity := signature.arity
  let front ← arguments arity 0 pos
  let constants ←
    atParameters own pos (fun v kind => .ok (⟨kind, .const v⟩ : Binding)) 0 bound
  let back ← arguments arity pos arity
  let args := front ++ Program.slots arity (arity + bound.length) ++ back
  return ⟨signature, .calling arity constants target args⟩

def insertIgnored (target : Handle) (pos : Nat) (kinds : List Kind) : Checked Blueprint := do
  let signature ← insertParams target.signature pos kinds
  let arity := signature.arity
  let front ← arguments arity 0 pos
  let after ← add pos kinds.length
  let back ← arguments arity after arity
  return ⟨signature, .calling arity [] target (front ++ back)⟩

def dropArguments (h : Handle) (pos : Nat) (kinds : List Kind) : Build Handle := do
  Build.ofChecked (requirePositions h.signature pos 0)
  if kinds.isEmpty then return h
  Build.allocate (insertIgnored h pos kinds)

def dropArgumentsToMatch (h : Handle) (skip : Nat) (kinds : List Kind) (pos : Nat) :
    Build Handle := do
  let own := h.signature
  Build.ofChecked (requirePositions own skip 0)
  let kept ← Build.ofChecked (slice own.params skip own.arity)
  if pos > kinds.length then
    Build.refuse (.illegalArgument (.keptTooLong kept.length pos kinds.length))
  let room ← Build.ofChecked (sub kinds.length pos)
  if kept.length > room then
    Build.refuse (.illegalArgument (.keptTooLong kept.length pos kinds.length))
  let front ← Build.ofChecked (slice own.params 0 skip)
  let total ← Build.ofChecked (add skip kinds.length)
  Build.ofChecked (reserve total)
  let wanted ← Build.ofChecked (Checked.ofExcept (Signature.make own.ret (front ++ kinds)))
  let stop ← Build.ofChecked (add pos kept.length)
  let found ← Build.ofChecked (slice kinds pos stop)
  if found != kept then Build.refuse (.adapterMismatch (.keptParameters skip pos) wanted own)
  let before ← Build.ofChecked (slice kinds 0 pos)
  let leading ← dropArguments h skip before
  let after ← Build.ofChecked (slice kinds stop kinds.length)
  dropArguments leading leading.arity after

/-- Puts the kinds that unary filters accept in the place of the parameters from `pos + i` on. -/
def filterParams (own : Signature) (pos : Nat) :
    Nat → List (Option Handle) → List Kind → Checked (List Kind)
  | _, [], params => .ok params
  | i, none :: rest, params => filterParams own pos (i + 1) rest params
  | i, some filter :: rest, params => do
    let slot ← add pos i
    if filter.arity != 1 then
      Checked.refuse (.adapterMismatch (.filterNotUnary slot) own filter.signature)
    let param ← item own.params slot
    if filter.signature.ret != param then
      Checked.refuse (.adapterMismatch (.filterReturn slot param) own filter.signature)
    let accepted ← item filter.signature.params 0
    let _ ← item params slot
    filterParams own pos (i + 1) rest (params.set slot accepted)

def filterArguments (target : Handle) (pos : Nat) (filters : List (Option Handle)) :
    Checked Blueprint := do
  let own := target.signature
  requirePositions own pos filters.length
  let params ← filterParams own pos 0 filters own.params
  let signature ← Checked.ofExcept (Signature.make own.ret params)
  let chains := own.params.mapIdx fun slot param =>
    (slot, (Blueprint.filterAt pos filters slot).toList.map fun filter => fun s =>
      (⟨param, .call filter [s]⟩ : Binding))
  let (before, args) := Program.layout own.arity chains
  return ⟨signature, .calling own.arity before target args⟩

/-- The number of arguments that the result of a handle takes the place of. -/
def fed (h : Handle) : Nat := if h.signature.returnsVoid then 0 else 1

/-- Requires that the result of a handle, if it has one, can be argument `pos`. -/
def requireResult (own : Signature) (pos : Nat) (h : Handle) (mismatch : Kind → Failure) :
    Checked Unit := do
  if fed h == 1 then
    let param ← item own.params pos
    if param != h.signature.ret then Checked.refuse (mismatch param)

def collectArguments (target : Handle) (pos : Nat) (filter : Handle) : Checked Blueprint := do
  let own := target.signature
  requirePositions own pos (fed filter)
  requireResult own pos filter fun param =>
    .adapterMismatch (.collectedReturn param) own filter.signature
  let stop ← add pos (fed filter)
  let signature ← replaceParams own pos stop filter.signature.params
  let arity := signature.arity
  let after ← add pos filter.arity
  let consumed ← arguments arity pos after
  let computed : Binding := ⟨filter.signature.ret, .call filter consumed⟩
  let front ← arguments arity 0 pos
  let back ← arguments arity after arity
  let args := front ++ List.replicate (fed filter) arity ++ back
  return ⟨signature, .calling arity [computed] target args⟩

def foldArguments (target : Handle) (pos : Nat) (combiner : Handle) : Checked Blueprint := do
  let own := target.signature
  let involved ← add (fed combiner) combiner.arity
  requirePositions own pos involved
  requireResult own pos combiner fun param =>
    .adapterMismatch (.combinerReturn param) own combiner.signature
  let start ← add pos (fed combiner)
  let stop ← add start combiner.arity
  let following ← slice own.params start stop
  if following != combiner.signature.params then
    Checked.refuse (.adapterMismatch (.combinerParameters start) own combiner.signature)
  let signature ← dropParams own pos start
  let arity := signature.arity
  let after ← add pos combiner.arity
  let consumed ← arguments arity pos after
  let computed : Binding := ⟨combiner.signature.ret, .call combiner consumed⟩
  let front ← arguments arity 0 pos
  let back ← arguments arity pos arity
  let args := front ++ List.replicate (fed combiner) arity ++ back
  return ⟨signature, .calling arity [computed] target args⟩

def spreader (target : Handle) (array : Kind) (count : Nat) : Checked Blueprint := do
  let own := target.signature
  let element ← Checked.ofExcept (Blueprint.elementOf array)
  if count > own.arity then Checked.refuse (.illegalArgument (.spreadCount count own))
  let start ← sub own.arity count
  let signature ← replaceParams own start own.arity [array]
  let trailing ← atParameters own start (fun _ kind => .ok kind) 0 (List.range count)
  if let some (offset, param) :=
      (trailing.mapIdx Prod.mk).find? fun (_, param) => !element.isConvertibleTo param then
    let slot ← add start offset
    Checked.refuse (.adapterMismatch (.spreadElement element slot param) own signature)
  let arity ← add start 1
  let front ← arguments arity 0 start
  let chains := trailing.mapIdx fun index param =>
    (start, (fun slot => ⟨element, .spread slot index count⟩) :: Program.conversion element param)
  let (before, args) := Program.layout arity chains
  return ⟨signature, .calling arity before target (front ++ args)⟩

def collector (target : Handle) (array : Kind) (count : Nat) : Checked Blueprint := do
  let own := target.signature
  let element ← Checked.ofExcept (Blueprint.elementOf array)
  match own.params.getLast? with
  | none => Checked.refuse (.illegalArgument (.nothingToCollect own))
  | some trailing =>
    let last ← sub own.arity 1
    reserve count
    let signature ← replaceParams own last own.arity (List.replicate count element)
    if !array.isViewableAs trailing true then
      Checked.refuse (.adapterMismatch (.collectorArray array trailing) own signature)
    let arity ← add last count
    let front ← arguments arity 0 last
    let collected ← arguments arity last arity
    let gathered : Binding := ⟨array, .collect element collected⟩
    return ⟨signature, .calling arity [gathered] target (front ++ [arity])⟩

/-! Each of them answers. -/

variable {α β : Type} {target h : Handle} {own s : Signature} {pos count i : Nat}

theorem requirePositions_answers (s : Signature) (pos count : Nat) :
    Answers (fun _ => pos + count ≤ s.arity) (requirePositions s pos count)
      (Blueprint.requirePositions s pos count) := by
  unfold requirePositions Blueprint.requirePositions
  by_cases beyond : pos > s.arity
  · rw [if_pos beyond, if_pos (.inl beyond)]
    exact .refuse _
  · rw [if_neg beyond]
    refine .wordStep (sub_of_le (by omega)) ?_
    by_cases many : count > s.arity - pos
    · rw [if_pos many, if_pos (.inr many)]
      exact .refuse _
    · rw [if_neg many, if_neg (not_or.2 ⟨beyond, many⟩)]
      refine .ok ?_
      omega

theorem ofExcept_bind (x : Except Failure α) (f : α → Except Failure β) :
    Checked.ofExcept (x >>= f) = (Checked.ofExcept x >>= fun a => Checked.ofExcept (f a)) := by
  cases x <;> rfl

theorem mapM_eq_ok {ε : Type} {f : α → Except ε β} {g : α → β} {xs : List α}
    (each : ∀ a ∈ xs, f a = .ok (g a)) : xs.mapM f = .ok (xs.map g) := by
  induction xs with
  | nil => rfl
  | cons a rest ih =>
    obtain ⟨here, others⟩ := List.forall_mem_cons.1 each
    rw [List.mapM_cons, here, ih others]
    rfl

/-- Positions that lie within the parameters are found, and none of them wraps. -/
theorem atParameters_eq (wf : own.WellFormed) (f : α → Kind → Except Failure β) (xs : List α)
    (inside : pos + i + xs.length ≤ own.arity) :
    atParameters own pos f i xs = Checked.ofExcept
      ((xs.zip ((own.params.drop (pos + i)).take xs.length)).mapM fun (a, kind) => f a kind) := by
  induction xs generalizing i with
  | nil => rfl
  | cons a rest ih =>
    rw [List.length_cons] at inside
    have arity := wf.arity_lt
    have small : pos + i < UInt64.size := by
      have : 255 < UInt64.size := by decide
      omega
    have here : pos + i < own.params.length := by
      unfold Signature.arity at inside
      omega
    have next := ih (i := i + 1) (by omega)
    rw [List.drop_eq_getElem_cons here, List.length_cons, List.take_succ_cons, List.zip_cons_cons,
      List.mapM_cons, ofExcept_bind, atParameters, add_of_lt small]
    show (item own.params (pos + i) >>= _) = _
    rw [item_of_lt here]
    show (Checked.ofExcept (f a own.params[pos + i]) >>= _) = _
    refine congrArg (_ >>= ·) (funext fun b => ?_)
    rw [next, ofExcept_bind, Nat.add_assoc]
    rfl

theorem insertArguments_answers (wf : target.signature.WellFormed) (values : List Value) :
    Answers (fun _ => True) (insertArguments target pos values)
      (Blueprint.insertArguments target pos values) := by
  unfold insertArguments Blueprint.insertArguments
  refine (requirePositions_answers _ _ _).bind fun _ inside => ?_
  have small := wf.arity_lt
  have size : 255 < UInt64.size := by decide
  have room : pos + values.length ≤ target.signature.params.length := inside
  refine .exactStep (slice_of_le (Nat.le_add_right _ _) room) ?_
  rw [Nat.add_sub_cancel_left]
  dsimp only
  rw [atParameters_eq wf _ _ inside, Nat.add_zero]
  refine (Answers.ofExcept (mapM_ends fun a _ => (Value.coerce_ends a.1 a.2).imp
    fun _ _ => trivial)).bind fun bound fitted => ?_
  have width : bound.length = values.length := by
    rw [← fitted.length_eq, List.length_zip, List.length_take, List.length_drop]
    omega
  refine .wordStep (add_of_lt (by omega)) ?_
  refine (replaceParams_answers_few wf (Nat.zero_le _)).bind fun signature edited => ?_
  obtain ⟨-, -, arity, -⟩ := edited
  rw [List.length_nil] at arity
  have constants : atParameters target.signature pos
      (fun v kind => .ok (⟨kind, .const v⟩ : Binding)) 0 bound =
      .ok ((((target.signature.params.drop pos).take values.length).zip bound).map
        fun a => ⟨a.1, .const a.2⟩) := by
    rw [atParameters_eq wf _ _ (by omega), mapM_eq_ok fun _ _ => rfl, Nat.add_zero, width,
      ← List.zip_swap, List.map_map]
    rfl
  refine .wordStep (arguments_of_le (by omega)) ?_
  refine .wordStep constants ?_
  exact .wordStep (arguments_of_le (Nat.le_refl _)) (.ok trivial)

theorem insertIgnored_answers (wf : target.signature.WellFormed) {kinds : List Kind}
    (inside : pos ≤ target.signature.arity) (fits : maxArity + kinds.length ≤ longestKindList) :
    Answers (fun b => b.signature.WellFormed) (insertIgnored target pos kinds)
      (Blueprint.insertIgnored target pos kinds) := by
  unfold insertIgnored Blueprint.insertIgnored
  have small := wf.arity_lt
  have size : longestKindList < UInt64.size := by decide
  have limit := wf.arity_le
  have room : target.signature.arity - (pos - pos) + kinds.length ≤ longestKindList := by
    unfold Signature.arity
    omega
  refine (replaceParams_answers room).bind fun signature edited => ?_
  obtain ⟨-, -, arity, made⟩ := edited
  refine .wordStep (arguments_of_le (by omega)) ?_
  refine .wordStep (add_of_lt (by omega)) ?_
  exact .wordStep (arguments_of_le (Nat.le_refl _)) (.ok made)

/-- What lies within a list is found. -/
theorem ends_ofOption_of_lt {xs : List α} (inside : i < xs.length) :
    Ends Halt.IsFailure (fun a => a = xs[i]) (Checked.ofOption xs[i]?) := by
  rw [List.getElem?_eq_getElem inside]
  rfl

/-- A permutation adds and subtracts no positions, and looks only for parameters that are there. -/
theorem permuteArguments_ends (target : Handle) (s : Signature) (reorder : List Nat) :
    Ends Halt.IsFailure (fun _ => True) (Blueprint.permuteArguments target s reorder) := by
  unfold Blueprint.permuteArguments
  refine Ends.check ⟨_, rfl⟩ fun lengths => ?_
  refine Ends.check ⟨_, rfl⟩ fun _ => ?_
  have length : reorder.length = target.signature.arity := by simpa [bne] using lengths
  refine Ends.bind (P := fun _ => ∀ a ∈ reorder.mapIdx Prod.mk, True)
    (forIn_ends fun a mem => ?_) fun _ _ => trivial
  obtain ⟨slot, inside, rfl⟩ := List.mem_mapIdx.1 mem
  have wanted : slot < target.signature.params.length := Nat.lt_of_lt_of_eq inside length
  refine Ends.bind (P := fun _ => True) ?_ fun _ _ => ⟨rfl, trivial⟩
  unfold Blueprint.requireFeed
  refine Ends.check ⟨_, rfl⟩ fun below => ?_
  refine (ends_ofOption_of_lt (Nat.lt_of_not_ge below)).bind fun _ _ => ?_
  refine (ends_ofOption_of_lt wanted).bind fun _ _ => ?_
  exact Ends.check ⟨_, rfl⟩ fun _ => trivial

/-! Filters. -/

/-- Computes something of each item of a list and of its position. -/
def mapFrom (f : Nat → α → Checked β) : Nat → List α → Checked (List β)
  | _, [] => .ok []
  | n, a :: rest => do
    let b ← f n a
    let others ← mapFrom f (n + 1) rest
    return b :: others

theorem mapM_mapIdx_eq (f : Nat → α → Checked β) (n : Nat) (xs : List α) :
    ((xs.mapIdx fun j a => (n + j, a)).mapM fun (j, a) => f j a) = mapFrom f n xs := by
  induction xs generalizing n with
  | nil => rfl
  | cons a rest ih =>
    have shifted : (fun (j : Nat) (a : α) => (n + (j + 1), a)) = fun j a => (n + 1 + j, a) := by
      funext j a
      rw [Nat.add_right_comm, Nat.add_assoc]
    rw [List.mapIdx_cons, List.mapM_cons, shifted, ih]
    rfl

/-- Items in front that are left as they are. -/
theorem mapFrom_append {f : Nat → α → Checked α} (front xs : List α) {n : Nat}
    (kept : ∀ j a, n ≤ j → j < n + front.length → f j a = .ok a) :
    mapFrom f n (front ++ xs) = (do return front ++ (← mapFrom f (n + front.length) xs)) := by
  induction front generalizing n with
  | nil =>
    show mapFrom f n xs = mapFrom f n xs >>= pure
    rw [bind_pure]
  | cons a rest ih =>
    have later : ∀ j b, n + 1 ≤ j → j < n + 1 + rest.length → f j b = .ok b := by
      intro j b low high
      exact kept j b (by omega) (by rw [List.length_cons]; omega)
    rw [List.cons_append, mapFrom, kept n a (Nat.le_refl _) (by simp), ih later, List.length_cons,
      Nat.add_comm rest.length 1, ← Nat.add_assoc]
    cases mapFrom f (n + 1 + rest.length) xs <;> rfl

/-- What filters make of one parameter. -/
def filterParam (own : Signature) (pos : Nat) (filters : List (Option Handle)) (slot : Nat)
    (param : Kind) : Checked Kind :=
  match Blueprint.filterAt pos filters slot with
  | some filter => Blueprint.filteredParam own slot filter
  | none => pure param

theorem filterParam_of_lt {filters : List (Option Handle)} {slot : Nat} (before : slot < pos)
    (param : Kind) : filterParam own pos filters slot param = .ok param := by
  rw [filterParam, Blueprint.filterAt, if_pos before]
  rfl

theorem filterParam_add (filters : List (Option Handle)) (param : Kind) :
    filterParam own pos filters (pos + i) param =
      match (filters[i]?).join with
      | some filter => Blueprint.filteredParam own (pos + i) filter
      | none => pure param := by
  rw [filterParam, Blueprint.filterAt, if_neg (Nat.not_lt.2 (Nat.le_add_right _ _)),
    Nat.add_sub_cancel_left]

theorem filteredParam_eq {filter : Handle} {slot : Nat} (here : slot < own.params.length) :
    Blueprint.filteredParam own slot filter = (do
      if filter.arity != 1 then
        Checked.refuse (.adapterMismatch (.filterNotUnary slot) own filter.signature)
      if filter.signature.ret != own.params[slot] then
        Checked.refuse (.adapterMismatch (.filterReturn slot own.params[slot]) own filter.signature)
      item filter.signature.params 0) := by
  rw [Blueprint.filteredParam, List.getElem?_eq_getElem here]
  unfold Handle.arity
  generalize filter.signature.params = params
  rcases params with _ | ⟨_, _ | ⟨_, _⟩⟩ <;> rfl

/-- A filter is checked as it is over exact numbers, and what it accepts is put in. -/
theorem filterParams_cons_some {filter : Handle} {params : List Kind} (wf : own.WellFormed)
    (here : pos + i < own.params.length) (length : params.length = own.params.length)
    (rest : List (Option Handle)) :
    filterParams own pos i (some filter :: rest) params = (do
      let kind ← Blueprint.filteredParam own (pos + i) filter
      filterParams own pos (i + 1) rest (params.set (pos + i) kind)) := by
  have small : pos + i < UInt64.size := by
    have := wf.arity_lt
    have : 255 < UInt64.size := by decide
    unfold Signature.arity at *
    omega
  rw [filterParams, add_of_lt small, filteredParam_eq here]
  show (if (filter.arity != 1) = true then _ else _) = _
  by_cases unary : (filter.arity != 1) = true
  · rw [if_pos unary, if_pos unary]
    rfl
  rw [if_neg unary, if_neg unary]
  show (item own.params (pos + i) >>= _) = _
  rw [item_of_lt here]
  show (if (filter.signature.ret != own.params[pos + i]) = true then _ else _) = _
  by_cases other : (filter.signature.ret != own.params[pos + i]) = true
  · rw [if_pos other, if_pos other]
    rfl
  rw [if_neg other, if_neg other]
  show (item filter.signature.params 0 >>= _) = (item filter.signature.params 0 >>= _)
  refine congrArg (_ >>= ·) (funext fun kind => ?_)
  show (item params (pos + i) >>= _) = _
  rw [item_of_lt (Nat.lt_of_lt_of_eq here length.symm)]
  rfl

/-- The filters from `i` on, where those before were put in. -/
theorem filterParams_eq (wf : own.WellFormed) {filters : List (Option Handle)}
    (inside : pos + filters.length ≤ own.arity) (rest : List (Option Handle)) (front : List Kind)
    (remaining : filters.drop i = rest) (done : front.length = pos + i) :
    filterParams own pos i rest (front ++ own.params.drop (pos + i)) =
      (do return front ++ (← mapFrom (filterParam own pos filters) (pos + i)
        (own.params.drop (pos + i)))) := by
  induction rest generalizing i front with
  | nil =>
    have beyond : filters.length ≤ i := List.drop_eq_nil_iff.1 remaining
    have kept := mapFrom_append (f := filterParam own pos filters) (n := pos + i)
      (own.params.drop (pos + i)) [] fun j param low _ => by
        obtain ⟨k, rfl⟩ := Nat.exists_eq_add_of_le (Nat.le_of_add_right_le low)
        rw [filterParam_add, List.getElem?_eq_none (by omega)]
        rfl
    rw [List.append_nil] at kept
    rw [kept, filterParams]
    simp [mapFrom, bind, Except.bind, pure, Except.pure]
  | cons a rest ih =>
    have more : i < filters.length := by
      by_contra none
      rw [List.drop_eq_nil_iff.2 (Nat.not_lt.1 none)] at remaining
      cases remaining
    have here : pos + i < own.params.length := by
      unfold Signature.arity at inside
      omega
    rw [List.drop_eq_getElem_cons more] at remaining
    obtain ⟨first, next⟩ := List.cons.inj remaining
    have given : (filters[i]?).join = a := by
      rw [List.getElem?_eq_getElem more, first]
      rfl
    have tail (kind : Kind) : filterParams own pos (i + 1) rest
        (front ++ kind :: own.params.drop (pos + i + 1)) = (do
          let others ← mapFrom (filterParam own pos filters) (pos + i + 1)
            (own.params.drop (pos + i + 1))
          return front ++ kind :: others) := by
      have length : (front ++ [kind]).length = pos + (i + 1) := by
        rw [List.length_append, List.length_singleton, done, Nat.add_assoc]
      simpa [← Nat.add_assoc] using ih (front ++ [kind]) next length
    rw [List.drop_eq_getElem_cons here, mapFrom, filterParam_add, given]
    cases a with
    | none =>
      rw [filterParams, tail]
      simp
    | some filter =>
      have length : (front ++ own.params[pos + i] :: own.params.drop (pos + i + 1)).length =
          own.params.length := by
        rw [List.length_append, List.length_cons, List.length_drop, done]
        omega
      have replaced (kind : Kind) :
          (front ++ own.params[pos + i] :: own.params.drop (pos + i + 1)).set (pos + i) kind =
            front ++ kind :: own.params.drop (pos + i + 1) := by
        rw [List.set_append_right _ _ (Nat.le_of_eq done), done, Nat.sub_self, List.set_cons_zero]
      rw [filterParams_cons_some wf here length]
      simp only [replaced, tail, bind_assoc, pure_bind]

theorem filterParams_answers (wf : own.WellFormed) {filters : List (Option Handle)}
    (inside : pos + filters.length ≤ own.arity) :
    Answers (fun _ => True) (filterParams own pos 0 filters own.params)
      ((own.params.mapIdx Prod.mk).mapM fun (slot, param) =>
        match Blueprint.filterAt pos filters slot with
        | some filter => Blueprint.filteredParam own slot filter
        | none => pure param) where
  eq := by
    have begin : pos ≤ own.params.length := by
      unfold Signature.arity at inside
      omega
    have length : (own.params.take pos).length = pos := List.length_take_of_le begin
    have exact := mapM_mapIdx_eq (filterParam own pos filters) 0 own.params
    have front := mapFrom_append (f := filterParam own pos filters) (n := 0) (own.params.take pos)
      (own.params.drop pos) fun slot param _ before => filterParam_of_lt (by omega) param
    have filtered := filterParams_eq (i := 0) wf inside filters (own.params.take pos) rfl length
    simp only [Nat.zero_add, Nat.add_zero, length, List.take_append_drop] at exact front filtered
    rw [filtered, ← front, ← exact]
    rfl
  ends := by
    refine (mapM_ends fun a mem => ?_).imp fun _ _ => trivial
    obtain ⟨slot, inside, rfl⟩ := List.mem_mapIdx.1 mem
    dsimp only
    split
    · rw [filteredParam_eq inside]
      refine Ends.check ⟨_, rfl⟩ fun unary => ?_
      refine Ends.check ⟨_, rfl⟩ fun _ => ?_
      refine (ends_ofOption_of_lt ?_).imp fun _ _ => trivial
      simp_all [Handle.arity, Signature.arity]
    · trivial

theorem filterArguments_answers (wf : target.signature.WellFormed)
    (filters : List (Option Handle)) :
    Answers (fun _ => True) (filterArguments target pos filters)
      (Blueprint.filterArguments target pos filters) := by
  unfold filterArguments Blueprint.filterArguments
  refine (requirePositions_answers _ _ _).bind fun _ inside => ?_
  refine (filterParams_answers wf inside).bind fun params _ => ?_
  exact (Answers.ofExcept (Signature.make_ends _ _)).bind fun _ _ => .ok trivial

/-! Handles whose results are arguments. -/

theorem fed_cases (h : Handle) : fed h = 0 ∨ fed h = 1 := by
  unfold fed
  split
  · exact .inl rfl
  · exact .inr rfl

/-- A result that can be an argument, or that is none, lets both computations go on. -/
theorem requireResult_bind {R : β → Prop} {mismatch : Kind → Failure}
    {next next' : Unit → Checked β}
    (inside : pos + fed h ≤ own.arity) (passed : Answers R (next ()) (next' ())) :
    Answers R (requireResult own pos h mismatch >>= next) (do
      let replaced ← Checked.ofOption (slice? own.params pos (pos + fed h))
      match replaced.find? (· != h.signature.ret) with
      | some param => do
        let r ← Checked.refuse (mismatch param)
        next' r
      | _ => next' ()) := by
  refine .exactStep (slice_of_le (Nat.le_add_right _ _) inside) ?_
  rw [Nat.add_sub_cancel_left, requireResult]
  rcases fed_cases h with none | one
  · rw [none]
    exact passed
  · have here : pos < own.params.length := by
      rw [one] at inside
      exact inside
    rw [one, List.drop_eq_getElem_cons here, item_of_lt here]
    show Answers R ((if (own.params[pos] != h.signature.ret) = true then _ else _) >>= next) _
    by_cases other : (own.params[pos] != h.signature.ret) = true
    · simp only [List.take_succ_cons, List.find?_cons, other]
      exact .refuse _
    · simp only [List.take_succ_cons, List.find?_cons, other]
      exact passed

theorem collectArguments_answers (wf : target.signature.WellFormed) {filter : Handle}
    (filterWf : filter.signature.WellFormed) :
    Answers (fun _ => True) (collectArguments target pos filter)
      (Blueprint.collectArguments target pos filter) := by
  unfold collectArguments Blueprint.collectArguments
  refine (requirePositions_answers _ _ _).bind fun _ inside => ?_
  dsimp only
  refine requireResult_bind inside ?_
  have small := wf.arity_lt
  have few := filterWf.arity_lt
  have size : 1000 < UInt64.size := by decide
  have width : filter.signature.params.length = filter.arity := rfl
  change filter.arity < 255 at few
  refine .wordStep (add_of_lt (by omega)) ?_
  refine (replaceParams_answers_few wf filterWf.arity_le).bind fun signature edited => ?_
  obtain ⟨-, -, arity, -⟩ := edited
  rw [width] at arity
  refine .wordStep (add_of_lt (by omega)) ?_
  refine .wordStep (arguments_of_le (by omega)) ?_
  refine .wordStep (arguments_of_le (by omega)) ?_
  exact .wordStep (arguments_of_le (Nat.le_refl _)) (.ok trivial)

theorem foldArguments_answers (wf : target.signature.WellFormed) {combiner : Handle}
    (combinerWf : combiner.signature.WellFormed) :
    Answers (fun _ => True) (foldArguments target pos combiner)
      (Blueprint.foldArguments target pos combiner) := by
  unfold foldArguments Blueprint.foldArguments
  have small := wf.arity_lt
  have few := combinerWf.arity_lt
  have size : 1000 < UInt64.size := by decide
  have fed_le : fed combiner ≤ 1 := by
    rcases fed_cases combiner with none | one <;> omega
  change combiner.arity < 255 at few
  dsimp only
  refine .wordStep (add_of_lt (by omega)) ?_
  refine (requirePositions_answers _ _ _).bind fun _ inside => ?_
  refine requireResult_bind (by omega) ?_
  refine .wordStep (add_of_lt (by omega)) ?_
  refine .wordStep (add_of_lt (by omega)) ?_
  have follow : pos + fed combiner + combiner.arity ≤ target.signature.params.length := by
    unfold Signature.arity at inside
    omega
  have following := slice_of_le (Nat.le_add_right (pos + fed combiner) combiner.arity) follow
  refine .wordStep following ?_
  refine .exactStep following ?_
  refine .check fun _ => ?_
  refine (replaceParams_answers_few wf (Nat.zero_le _)).bind fun signature edited => ?_
  obtain ⟨-, -, arity, -⟩ := edited
  rw [List.length_nil] at arity
  refine .wordStep (add_of_lt (by omega)) ?_
  refine .wordStep (arguments_of_le (by omega)) ?_
  refine .wordStep (arguments_of_le (by omega)) ?_
  exact .wordStep (arguments_of_le (Nat.le_refl _)) (.ok trivial)

/-! Spreaders and collectors. -/

/-- The parameters from `start` on, where there are as many as are counted. -/
theorem atParameters_range (wf : own.WellFormed) {start : Nat}
    (inside : start + count = own.arity) :
    atParameters own start (fun _ kind => .ok kind) 0 (List.range count) =
      .ok (own.paramsFrom start) := by
  rw [atParameters_eq wf _ _ (by rw [List.length_range]; omega), mapM_eq_ok fun _ _ => rfl,
    Nat.add_zero, List.length_range]
  have length : (own.params.drop start).length = count := by
    rw [List.length_drop]
    unfold Signature.arity at inside
    omega
  rw [List.take_of_length_le (Nat.le_of_eq length)]
  show Checked.ofExcept (.ok (List.map Prod.snd _)) = _
  rw [List.map_snd_zip (by rw [length, List.length_range])]
  rfl

theorem spreader_answers (wf : target.signature.WellFormed) (array : Kind) (count : Nat) :
    Answers (fun _ => True) (spreader target array count)
      (Blueprint.spreader target array count) := by
  unfold spreader Blueprint.spreader
  refine (Answers.ofExcept (Blueprint.elementOf_ends array)).bind fun element _ => ?_
  refine .check fun enough => ?_
  have small := wf.arity_lt
  have size : 1000 < UInt64.size := by decide
  dsimp only
  refine .wordStep (sub_of_le (by omega)) ?_
  have one : [array].length ≤ maxArity := Nat.le_add_left 1 253
  refine (replaceParams_answers_few wf one).bind fun signature _ => ?_
  refine .wordStep (atParameters_range wf (by omega)) ?_
  cases found : ((target.signature.paramsFrom (target.signature.arity - count)).mapIdx
      Prod.mk).find? fun (_, param) => !element.isConvertibleTo param with
  | some mismatch =>
    obtain ⟨offset, inside, same⟩ := List.mem_mapIdx.1 (List.mem_of_find?_eq_some found)
    rw [Signature.paramsFrom, List.length_drop] at inside
    change offset < target.signature.arity - _ at inside
    cases same
    exact .wordStep (add_of_lt (by omega)) (.refuse _)
  | none =>
    refine .wordStep (add_of_lt (by omega)) ?_
    exact .wordStep (arguments_of_le (Nat.le_add_right _ _)) (.ok trivial)

/-- With too many parameters in the place of the last one a signature cannot be made. -/
theorem replaceLast_of_many {kinds : List Kind} (present : 1 ≤ own.arity)
    (many : own.arity - 1 + kinds.length > maxArity) :
    own.replaceParams (own.arity - 1) own.arity kinds =
      .error (.tooManyParameters (own.arity - 1 + kinds.length) maxArity) := by
  have others : own.arity - (own.arity - (own.arity - 1)) = own.arity - 1 := by omega
  refine Signature.replaceParams_eq_tooMany_iff.2 ⟨⟨Nat.sub_le _ _, Nat.le_refl _⟩, ?_⟩
  rw [others]
  exact ⟨many, rfl, rfl⟩

/-- A collector answers where its list of kinds, with the other parameters, is not too long. -/
theorem collector_answers (array : Kind)
    (fits : target.signature.arity - 1 + count ≤ longestKindList) :
    Answers (fun _ => True) (collector target array count)
      (Blueprint.collector target array count) := by
  unfold collector Blueprint.collector
  refine (Answers.ofExcept (Blueprint.elementOf_ends array)).bind fun element _ => ?_
  cases last : target.signature.params.getLast? with
  | none => exact .refuse _
  | some trailing =>
    have present : 1 ≤ target.signature.arity := by
      obtain ⟨front, params⟩ := List.getLast?_eq_some_iff.1 last
      simp [Signature.arity, params]
    have size : longestKindList < UInt64.size := by decide
    have kinds : (List.replicate count element).length = count := List.length_replicate
    have room : target.signature.arity - (target.signature.arity - (target.signature.arity - 1)) +
        (List.replicate count element).length ≤ longestKindList := by omega
    have edit := replaceParams_answers room
    dsimp only
    refine .wordStep (sub_of_le present) ?_
    refine .wordStep (reserve_of_le (by omega)) ?_
    rw [if_neg (by omega)]
    by_cases many : target.signature.arity - 1 + count > maxArity
    · have refused := @replaceLast_of_many _ (List.replicate count element) present
        (by rwa [kinds])
      rw [edit.eq, refused, kinds, if_pos many]
      exact .refuse _
    · rw [if_neg many]
      refine edit.bind fun signature _ => ?_
      refine .check fun _ => ?_
      refine .wordStep (add_of_lt (by omega)) ?_
      refine .wordStep (arguments_of_le (Nat.le_add_right _ _)) ?_
      exact .wordStep (arguments_of_le (Nat.le_refl _)) (.ok trivial)

/-- A collector of too many parameters is refused for their number, where a list can hold them. -/
theorem collector_of_many {array element trailing : Kind} (array_eq : array.element? = some element)
    (last : target.signature.params.getLast? = some trailing)
    (few : target.signature.arity - 1 + count ≤ longestKindList)
    (many : target.signature.arity - 1 + count > maxArity) :
    Blueprint.collector target array count =
      Checked.refuse (.tooManyParameters (target.signature.arity - 1 + count) maxArity) := by
  unfold Blueprint.collector Blueprint.elementOf
  rw [array_eq]
  dsimp only
  rw [last]
  show (if _ > longestKindList then _ else _) = _
  rw [if_neg (Nat.not_lt.2 few)]
  show (if _ > maxArity then _ else _) = _
  rw [if_pos many]
  rfl

/-- For more parameters than a list of kinds can hold, a collector is not answered. -/
theorem collector_of_more {array element trailing : Kind} (array_eq : array.element? = some element)
    (last : target.signature.params.getLast? = some trailing)
    (more : longestKindList < target.signature.arity - 1 + count) :
    collector target array count = .error .stuck ∧
      Blueprint.collector target array count = .error .stuck := by
  have present : 1 ≤ target.signature.arity := by
    obtain ⟨front, params⟩ := List.getLast?_eq_some_iff.1 last
    simp [Signature.arity, params]
  constructor
  · unfold collector Blueprint.elementOf
    rw [array_eq]
    dsimp only
    rw [last]
    dsimp only
    rw [sub_of_le present]
    show (reserve count >>= _) = _
    -- Either the items alone are too many for a list, or only together with the other parameters.
    by_cases few : count ≤ longestKindList
    · rw [reserve_of_le few]
      show (replaceParams target.signature _ _ (List.replicate count element) >>= _) = _
      rw [replaceParams_of_many (Nat.sub_le _ _) (Nat.le_refl _)
        (by rw [List.length_replicate]; omega)]
      rfl
    · rw [reserve, if_neg few]
      rfl
  · unfold Blueprint.collector Blueprint.elementOf
    rw [array_eq]
    dsimp only
    rw [last]
    show (if _ > longestKindList then _ else _) = _
    rw [if_pos more]
    rfl

/-- A collector over words is the one over exact numbers, whatever the count is. -/
theorem collector_eq (target : Handle) (array : Kind) (count : Nat) :
    collector target array count = Blueprint.collector target array count := by
  by_cases fits : target.signature.arity - 1 + count ≤ longestKindList
  · exact (collector_answers array fits).eq
  · cases kind : array.element? with
    | none =>
      unfold collector Blueprint.collector Blueprint.elementOf
      rw [kind]
      rfl
    | some element =>
      cases last : target.signature.params.getLast? with
      | none =>
        unfold collector Blueprint.collector Blueprint.elementOf
        rw [kind]
        dsimp only
        rw [last]
      | some trailing =>
        obtain ⟨word, exact⟩ := collector_of_more kind last (Nat.not_le.1 fits)
        rw [word, exact]

/-! Handles that ignore arguments. -/

/-- The machine builds what is built over exact numbers: something of which `P` holds, or it reports
a failure. -/
structure Builds (P : α → Prop) (word exact : Build α) : Prop where
  eq : word = exact
  ends : ∀ t, Ends Halt.IsFailure P (exact t).1

namespace Builds

variable {P : α → Prop} {R : β → Prop} {x y : Build α} {f g : α → Build β}

theorem imp {Q : α → Prop} (h : Builds P x y) (weaker : ∀ a, P a → Q a) : Builds Q x y :=
  ⟨h.eq, fun t => (h.ends t).imp weaker⟩

theorem pure {a : α} (here : P a) : Builds P (pure a) (pure a) := ⟨rfl, fun _ => here⟩

theorem refuse (failure : Failure) : Builds P (Build.refuse failure) (Build.refuse failure) :=
  ⟨rfl, fun _ => ⟨failure, rfl⟩⟩

theorem ofChecked {x y : Checked α} (h : Answers P x y) :
    Builds P (Build.ofChecked x) (Build.ofChecked y) :=
  ⟨congrArg Build.ofChecked h.eq, fun _ => h.ends⟩

theorem bind (first : Builds P x y) (next : ∀ a, P a → Builds R (f a) (g a)) :
    Builds R (x >>= f) (y >>= g) := by
  obtain ⟨rfl, ends⟩ := first
  refine ⟨funext fun t => ?_, fun t => ?_⟩
  · match done : x t with
    | (.ok a, t') =>
      have here := ends t
      rw [done] at here
      rw [bind_of_ok done, bind_of_ok done, (next a here).eq]
    | (.error e, t') => rw [bind_of_error done, bind_of_error done]
  · have here := ends t
    match done : x t with
    | (.ok a, t') =>
      rw [done] at here
      rw [bind_of_ok done]
      exact (next a here).ends t'
    | (.error e, t') =>
      rw [done] at here
      rw [bind_of_error done]
      exact here

/-- A step that only the machine takes. -/
theorem wordStep {x : Checked α} {a : α} {z : Build β} (done : x = .ok a)
    (next : Builds R (f a) z) : Builds R (Build.ofChecked x >>= f) z := by
  rw [done]
  exact next

/-- A step that only the exact computation takes. -/
theorem exactStep {y : Checked α} {a : α} {z : Build β} (done : y = .ok a)
    (next : Builds R z (g a)) : Builds R z (Build.ofChecked y >>= g) := by
  rw [done]
  exact next

/-- A handle that is accepted is made. -/
theorem allocate {b c : Checked Blueprint} (h : Answers (fun b => b.signature.WellFormed) b c) :
    Builds (fun g => g.signature.WellFormed) (Build.allocate b) (Build.allocate c) := by
  obtain ⟨rfl, ends⟩ := h
  refine ⟨rfl, fun t => ?_⟩
  cases b with
  | ok blueprint => exact ends
  | error e => exact ends

end Builds

theorem dropArguments_builds (wf : h.signature.WellFormed) {kinds : List Kind}
    (fits : maxArity + kinds.length ≤ longestKindList) :
    Builds (fun g => g.signature.WellFormed) (dropArguments h pos kinds)
      (h.dropArguments pos kinds) := by
  unfold dropArguments Handle.dropArguments
  refine (Builds.ofChecked (requirePositions_answers _ _ _)).bind fun _ inside => ?_
  split
  · exact .pure wf
  · exact .allocate (insertIgnored_answers wf inside fits)

theorem dropArgumentsToMatch_builds (wf : h.signature.WellFormed) {skip : Nat} {kinds : List Kind}
    (fits : maxArity + kinds.length ≤ longestKindList) :
    Builds (fun g => g.signature.WellFormed) (dropArgumentsToMatch h skip kinds pos)
      (h.dropArgumentsToMatch skip kinds pos) := by
  unfold dropArgumentsToMatch Handle.dropArgumentsToMatch
  have limit := wf.arity_le
  have size : longestKindList < UInt64.size := by decide
  refine (Builds.ofChecked (requirePositions_answers _ _ _)).bind fun _ inside => ?_
  have skipped : skip ≤ h.signature.params.length := inside
  refine .wordStep (slice_drop skipped) ?_
  dsimp only
  rw [show h.signature.params.drop skip = h.signature.paramsFrom skip from rfl]
  generalize h.signature.paramsFrom skip = kept
  by_cases beyond : pos > kinds.length
  · rw [if_pos beyond, if_pos (.inl beyond)]
    exact .refuse _
  rw [if_neg beyond]
  refine .wordStep (sub_of_le (by omega)) ?_
  by_cases many : kept.length > kinds.length - pos
  · rw [if_pos many, if_pos (.inr many)]
    exact .refuse _
  rw [if_neg many, if_neg (not_or.2 ⟨beyond, many⟩)]
  refine .wordStep (slice_take skipped) ?_
  refine .wordStep (add_of_lt (by unfold Signature.arity at inside; omega)) ?_
  refine .wordStep (reserve_of_le (by unfold Signature.arity at inside; omega)) ?_
  refine (Builds.ofChecked (Answers.ofExcept (Signature.make_ends _ _))).bind fun wanted _ => ?_
  refine .wordStep (add_of_lt (by omega)) ?_
  have found := @slice_of_le _ _ _ kinds (Nat.le_add_right pos kept.length) (by omega)
  refine .wordStep found ?_
  refine .exactStep found ?_
  by_cases other : ((kinds.drop pos).take (pos + kept.length - pos) != kept) = true
  · rw [if_pos other, if_pos other]
    exact .refuse _
  rw [if_neg other, if_neg other]
  refine .wordStep (slice_take (by omega)) ?_
  have taken : maxArity + (kinds.take pos).length ≤ longestKindList := by
    rw [List.length_take]
    omega
  have dropped : maxArity + (kinds.drop (pos + kept.length)).length ≤ longestKindList := by
    rw [List.length_drop]
    omega
  refine (dropArguments_builds wf taken).bind fun leading leadingWf => ?_
  refine .wordStep (slice_drop (by omega)) ?_
  exact dropArguments_builds leadingWf dropped

end Word
end TypedHandles
