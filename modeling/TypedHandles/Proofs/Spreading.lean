import TypedHandles.Proofs.Rewiring
import TypedHandles.Proofs.Throwing

/-!
Spreading an array over trailing parameters, and collecting trailing arguments into an array.

A spreader takes the items out of the array one by one, converts each to its parameter and calls its
handle; the first item already tells whether the array is one of the right length. A collector calls
its handle on a fresh array. So each undoes the other (`Handle.spreading_and_collecting`), but the
spreader refuses what is no array of the right length before anything is called.
-/
namespace TypedHandles

/-! The items of an array, in slots of their own. -/

namespace Step

variable {run : Runner} {limit : Nat} {kind : Kind} {frame : List Value} {slot : Slot}
  {index length : Nat} {v : Value}

theorem perform_spread (found : frame[slot]? = some v) :
    perform run limit kind (.spread slot index length) frame = spreadItem index length v := by
  unfold perform
  dsimp only
  rw [found]
  rfl

/-- An item of an array of the right length is taken. -/
theorem spreadItem_of_length {own : Kind} {values : List Value} (lengths : values.length = length)
    (here : values[index]? = some v) : spreadItem index length (.array own values) = pure v := by
  unfold spreadItem
  dsimp only
  rw [if_pos lengths, here]
  rfl

/-- An array of another length is refused, at every index. -/
theorem spreadItem_of_other_length {own : Kind} {values : List Value}
    (lengths : values.length ≠ length) : spreadItem index length (.array own values) =
      Exec.refuse (.wrongArgumentCount length values.length) :=
  if_neg lengths

end Step

namespace Program

/-- Takes the items of the array in a slot, one for each kind, and converts each to its kind. -/
def spreads (slot : Slot) (element : Kind) (kinds : List Kind) :
    List (Slot × List (Slot → Binding)) :=
  kinds.mapIdx fun index kind => (slot,
    (fun slot => ⟨element, .spread slot index kinds.length⟩) :: conversion element kind)

variable {run : Runner} {limit : Nat} {frame : List Value} {element : Kind} {count : Nat}
  {chains : List (Slot × List (Slot → Binding))} {items : List (Value × Kind × Kind)}

/-- A chain that takes one item of an array in the frame and converts it. -/
def Spreads (frame : List Value) (count : Nat) (chain : Slot × List (Slot → Binding))
    (item : Value × Kind × Kind) : Prop :=
  ∃ own values index, frame[chain.1]? = some (.array own values) ∧ values.length = count ∧
    values[index]? = some item.1 ∧ chain.2 =
      (fun slot => ⟨item.2.1, .spread slot index count⟩) :: conversion item.2.1 item.2.2

theorem Spreads.weaken (spreads : List.Forall₂ (Spreads frame count) chains items)
    (more : List Value) : List.Forall₂ (Spreads (frame ++ more) count) chains items := by
  refine List.Forall₂.imp (fun chain item ⟨own, values, index, found, steps⟩ => ?_) spreads
  refine ⟨own, values, index, ?_, steps⟩
  rwa [List.getElem?_append_left (List.getElem?_eq_some_iff.1 found).1]

/-- An item is taken first, and then converted where it stands. -/
theorem computes_spread {chain : Slot × List (Slot → Binding)} {item : Value × Kind × Kind}
    (spreads : Spreads frame count chain item) :
    Computes run limit frame (Program.chain frame.length chain.1 chain.2).1
      [(Program.chain frame.length chain.1 chain.2).2] (Value.convertAll [item]) := by
  obtain ⟨v, source, target⟩ := item
  obtain ⟨own, values, index, found, lengths, here, steps⟩ := spreads
  have taken : fill run limit frame [⟨source, .spread chain.1 index count⟩] =
      pure (frame ++ [v]) := by
    unfold fill
    dsimp only
    rw [Step.perform_spread found, Step.spreadItem_of_length lengths here]
    rfl
  have item : (frame ++ [v])[frame.length]? = some v := List.getElem?_concat_length
  have converts := computes_conversion run limit item source target
  rw [List.length_append, List.length_singleton] at converts
  have laid : Program.chain frame.length chain.1 chain.2 =
      (⟨source, .spread chain.1 index count⟩ ::
        (Program.chain (frame.length + 1) frame.length (conversion source target)).1,
        (Program.chain (frame.length + 1) frame.length (conversion source target)).2) := by
    rw [steps]
    rfl
  rw [laid]
  generalize Program.chain (frame.length + 1) frame.length (conversion source target) = rest
    at converts ⊢
  have filled : fill run limit frame (⟨source, .spread chain.1 index count⟩ :: rest.1) =
      fill run limit (frame ++ [v]) rest.1 := by
    rw [← List.singleton_append, fill_append, taken, pure_bind]
  cases done : Value.convertAll [(v, source, target)] with
  | error failure =>
    rw [done] at converts
    exact filled.trans converts
  | ok converted =>
    rw [done] at converts
    obtain ⟨more, length, fills, carries⟩ := converts
    rw [List.append_assoc] at fills carries
    exact ⟨v :: more, congrArg Nat.succ length, filled.trans fills, carries⟩

/-- Chains that take items take them from the first to the last. -/
theorem computes_spreads (spreads : List.Forall₂ (Spreads frame count) chains items) :
    Computes run limit frame (layout frame.length chains).1 (layout frame.length chains).2
      (Value.convertAll items) := by
  induction chains generalizing frame items with
  | nil =>
    cases spreads
    exact ⟨[], rfl, by rw [List.append_nil]; rfl, .nil⟩
  | cons c rest ih =>
    cases spreads with
    | @cons _ item _ items here others =>
      have all : Value.convertAll (item :: items) = (do
          let first ← Value.convertAll [item]
          let rest ← Value.convertAll items
          return first ++ rest) := by
        simp [Value.convertAll]
      rw [all]
      refine (computes_spread here).append fun more length => ?_
      rw [← length, ← List.length_append]
      exact ih (Spreads.weaken others more)

end Program

/-! Spreaders and collectors. -/

/-- The program that calls a handle on the leading arguments and on the items of an array. -/
def Handle.spreading (h : Handle) (leading : Nat) (element : Kind) (trailing : List Kind) :
    Program :=
  let laid := Program.layout (leading + 1) (Program.spreads leading element trailing)
  .calling (leading + 1) laid.1 h (Program.slots 0 leading ++ laid.2)

namespace Blueprint

variable {h : Handle} {leading trailing : List Kind} {element : Kind}

/-- A spreader of a handle whose trailing parameters take the items. -/
theorem spreader_eq (params : h.signature.params = leading ++ trailing)
    (convertible : ∀ k ∈ trailing, element.isConvertibleTo k = true) :
    spreader h (.arrayOf element) trailing.length = (do
      let signature ← Checked.ofExcept
        (Signature.make h.signature.ret (leading ++ [.arrayOf element]))
      return ⟨signature, h.spreading leading.length element trailing⟩) := by
  have arity : h.signature.arity = leading.length + trailing.length := by
    simp [Signature.arity, params]
  have start : h.signature.arity - trailing.length = leading.length := by omega
  have enough : ¬ trailing.length > h.signature.arity := by omega
  have replaced : h.signature.replaceParams leading.length h.signature.arity [.arrayOf element] =
      Signature.make h.signature.ret (leading ++ [.arrayOf element]) := by
    have parts : h.signature.params = leading ++ trailing ++ [] := by rw [params, List.append_nil]
    rw [Signature.replaceParams_of_parts parts rfl arity, List.append_nil]
  have rest : h.signature.paramsFrom leading.length = trailing := by
    simp [Signature.paramsFrom, params]
  have accepted : ∀ item ∈ trailing.mapIdx Prod.mk, ¬ (!element.isConvertibleTo item.2) = true := by
    intro item mem
    obtain ⟨i, inside, rfl⟩ := List.mem_mapIdx.1 mem
    simp [convertible _ (List.getElem_mem inside)]
  have own : elementOf (.arrayOf element) = .ok element := rfl
  unfold spreader
  simp only [own, start, if_neg enough]
  rw [show Checked.ofExcept (.ok element) = pure element from rfl, pure_bind, replaced, rest]
  rw [List.find?_eq_none.2 accepted]
  rfl

end Blueprint

namespace Handle

variable {h d : Handle} {leading trailing : List Kind} {element last : Kind} {count : Nat}
  {front items : List Value} {host : Host} {n : Nat}

/-- There is a spreader where the items convert to the parameters that they are spread over. -/
theorem asSpreader_build (wf : h.signature.WellFormed)
    (params : h.signature.params = leading ++ trailing) (present : trailing ≠ [])
    (convertible : ∀ k ∈ trailing, element.isConvertibleTo k = true) (t : HandleTable) :
    ∃ d u, (Construction.asSpreader h (.arrayOf element) trailing.length).build t = (.ok d, u) ∧
      d.signature.WellFormed ∧ d.signature = ⟨h.signature.ret, leading ++ [.arrayOf element]⟩ ∧
      d.program = h.spreading leading.length element trailing := by
  have wellFormed : Signature.WellFormed ⟨h.signature.ret, leading ++ [.arrayOf element]⟩ := by
    have limit := wf.arity_le
    have some := List.length_pos_iff.2 present
    rw [params, List.length_append] at limit
    refine ⟨?_, fun k mem => ?_⟩
    · rw [List.length_append, List.length_singleton]
      omega
    · rcases List.mem_append.1 mem with mem | mem
      · exact wf.no_void k (params ▸ List.mem_append_left _ mem)
      · cases List.mem_singleton.1 mem
        exact nofun
  unfold Construction.build Build.allocate
  dsimp only
  rw [Blueprint.spreader_eq params convertible, Signature.make_eq_ok_iff.2 ⟨rfl, wellFormed⟩]
  exact ⟨_, _, rfl, wellFormed, rfl, rfl⟩

/-- A spreader calls its handle on the leading arguments and on the converted items. -/
theorem call_spreading (keeps : h.KeepsResult)
    (program : d.program = h.spreading leading.length element trailing)
    (fits : front.length = leading.length) (own : Kind) (counted : items.length = trailing.length) :
    (runCode host (n + 1)).call d (front ++ [.array own items]) = (do
      let values ← Exec.ofExcept
        (Value.convertAll (items.zip (trailing.map fun kind => (element, kind))))
      (runCode host n).call h (front ++ values)) := by
  let args := front ++ [.array own items]
  have arity : leading.length + 1 = args.length := by simp [args, fits]
  have array : args[leading.length]? = some (.array own items) := by
    rw [← fits, List.getElem?_concat_length]
  have spread : List.Forall₂ (Program.Spreads args trailing.length)
      (Program.spreads leading.length element trailing)
      (items.zip (trailing.map fun kind => (element, kind))) := by
    refine List.forall₂_of_length_eq_of_get (by simp [Program.spreads, counted]) fun i h₁ h₂ => ?_
    have inside : i < trailing.length := by simpa [Program.spreads] using h₁
    exact ⟨own, items, i, by simpa [Program.spreads] using array, counted,
      by simp [counted, inside], by simp [Program.spreads]⟩
  show d.program.perform (runCode host n) n args = _
  rw [program, spreading, arity]
  have computes := @Program.computes_spreads (runCode host n) n _ _ _ _ spread
  have carries : Carries args (Program.slots 0 leading.length) front := by
    have taken : Carries args (Program.slots 0 leading.length) _ := Carries.take (by omega)
    rwa [List.take_left' fits] at taken
  generalize Program.layout args.length _ = laid at computes ⊢
  have all : Program.Computes (runCode host n) n args laid.1
      (Program.slots 0 leading.length ++ laid.2) (do
        let values ← Value.convertAll (items.zip (trailing.map fun kind => (element, kind)))
        return front ++ values) := by
    have nothing : Program.Computes (runCode host n) n args [] (Program.slots 0 leading.length)
        (.ok front) := ⟨[], rfl, by rw [List.append_nil]; rfl, by rwa [List.append_nil]⟩
    refine nothing.append fun more none => ?_
    rw [List.length_eq_zero_iff.1 none, List.append_nil]
    exact computes
  rw [Program.calling_perform all]
  cases Value.convertAll (items.zip (trailing.map fun kind => (element, kind))) with
  | error failure => rfl
  | ok values => exact h.call_kept keeps host n _

/-- A spreader calls nothing if the first item cannot be taken. -/
theorem call_spreading_of_refused {v : Value} {failure : Failure}
    (program : d.program = h.spreading leading.length element trailing) (present : trailing ≠ [])
    (fits : front.length = leading.length)
    (refused : Step.spreadItem 0 trailing.length v = Exec.refuse failure) :
    (runCode host (n + 1)).call d (front ++ [v]) = Exec.refuse failure := by
  have found : (front ++ [v])[leading.length]? = some v := by
    rw [← fits, List.getElem?_concat_length]
  obtain ⟨kind, kinds, rfl⟩ := List.exists_cons_of_ne_nil present
  show d.program.perform (runCode host n) n _ = _
  rw [program]
  unfold spreading Program.spreads Program.calling Program.perform
  simp only [List.mapIdx_cons, Program.layout, Program.chain, List.cons_append, Program.fill,
    Step.perform_spread found, refused]
  rfl

/-- So an invocation of it fails at once. -/
theorem failsAtOnce_of_refused {v : Value} {failure : Failure}
    (program : d.program = h.spreading leading.length element trailing) (present : trailing ≠ [])
    (fits : front.length = leading.length) (conform : Conform (front ++ [v]) d.signature.params)
    (refused : Step.spreadItem 0 trailing.length v = Exec.refuse failure) :
    d.FailsAtOnce 1 (front ++ [v]) failure := fun host n s => by
  rw [d.invokeExact_of_conform _ conform, call_spreading_of_refused program present fits refused]
  rfl

/-- There is a collector where the last parameter takes the array that is collected. -/
theorem asCollector_build (wf : h.signature.WellFormed)
    (params : h.signature.params = leading ++ [last])
    (viewable : (Kind.arrayOf element).isViewableAs last true = true) (nonVoid : element ≠ .void)
    (limit : leading.length + count ≤ Signature.maxArity) (t : HandleTable) :
    ∃ d u, (Construction.asCollector h (.arrayOf element) count).build t = (.ok d, u) ∧
      d.signature.WellFormed ∧
      d.signature = ⟨h.signature.ret, leading ++ List.replicate count element⟩ ∧
      d.program = gathering h leading.length element count := by
  have wellFormed : Signature.WellFormed
      ⟨h.signature.ret, leading ++ List.replicate count element⟩ := by
    refine ⟨by simpa using limit, fun k mem => ?_⟩
    rcases List.mem_append.1 mem with mem | mem
    · exact wf.no_void k (params ▸ List.mem_append_left _ mem)
    · rw [(List.mem_replicate.1 mem).2]
      exact nonVoid
  unfold Construction.build Build.allocate
  dsimp only
  rw [Blueprint.collector_eq_of_view params viewable limit,
    Signature.make_eq_ok_iff.2 ⟨rfl, wellFormed⟩]
  exact ⟨_, _, rfl, wellFormed, rfl, rfl⟩

/-- A collector calls its handle on the leading arguments and on the array of the others. -/
theorem call_gathering (keeps : h.KeepsResult)
    (program : d.program = gathering h leading.length element count)
    (fits : front.length = leading.length) (counted : items.length = count) :
    (runCode host (n + 1)).call d (front ++ items) =
      (runCode host n).call h (front ++ [.array element items]) := by
  have lengths : (front ++ items).length = leading.length + count := by simp [fits, counted]
  show d.program.perform (runCode host n) n _ = _
  rw [program, Blueprint.gathering_perform lengths, List.take_left' fits, List.drop_left' fits]
  exact h.call_kept keeps host n _

/-! Spreading and collecting undo each other. -/

/-- The signature of a handle with equal kinds for its last parameters equals its own. -/
theorem beq_signature_of_trailing {others : List Kind}
    (params : h.signature.params = leading ++ trailing) (alike : (trailing == others) = true) :
    (⟨h.signature.ret, leading ++ others⟩ == h.signature) = true := by
  refine Signature.beq_iff_parts.2 ⟨BEq.rfl, ?_⟩
  rw [params]
  refine beq_of_forall₂ (List.rel_append (forall₂_of_beq BEq.rfl) ?_)
  exact (forall₂_of_beq alike).flip.imp fun _ _ same => (Kind.same_comm _ _).trans same

/-- Items that are of the wanted kinds already are not converted. -/
theorem convertAll_of_beq {kinds : List Kind} (same : ∀ k ∈ kinds, (element == k) = true)
    (counted : items.length = kinds.length) :
    Value.convertAll (items.zip (kinds.map fun kind => (element, kind))) = .ok items := by
  rw [Value.convertAll_unchanged, List.map_fst_zip (by simp [counted])]
  intro item mem
  obtain ⟨k, known, pair⟩ := List.mem_map.1 (List.of_mem_zip mem).2
  rw [← pair]
  exact if_pos (same k known)

/-- What is spread over trailing parameters of one kind may be collected again. -/
theorem asCollector_after_asSpreader (wf : h.signature.WellFormed) (keeps : h.KeepsResult)
    (nonVoid : element ≠ .void) (positive : 0 < count)
    (params : h.signature.params = leading ++ trailing)
    (alike : (trailing == List.replicate count element) = true) (t : HandleTable) :
    ∃ d u, (Construction.asSpreader h (.arrayOf element) count).build t = (.ok d, u) ∧ ∀ t',
      ∃ e v, (Construction.asCollector d (.arrayOf element) count).build t' = (.ok e, v) ∧
        (e.signature == h.signature) = true ∧ ∀ host n args, Conform args h.signature.params →
          e.invokeExact (runCode host (n + 2)) args = h.invokeExact (runCode host n) args := by
  have length : trailing.length = count := by simpa using kinds_length_eq alike
  have same : ∀ k ∈ trailing, (element == k) = true := fun k mem => by
    obtain ⟨i, inside, rfl⟩ := List.getElem_of_mem mem
    have here := (forall₂_of_beq alike).get inside (by simpa [length] using inside)
    simp only [List.get_eq_getElem, List.getElem_replicate] at here
    exact (Kind.same_comm _ _).trans here
  have convertible : ∀ k ∈ trailing, element.isConvertibleTo k = true := fun k mem => by
    simp [Kind.isConvertibleTo, same k mem]
  obtain ⟨d, u, spread, wf', signature, program⟩ := asSpreader_build wf params
    (List.ne_nil_of_length_pos (length ▸ positive)) convertible t
  have keeps' : d.KeepsResult := keepsResult_of_calling program (by rw [signature])
  have limit := wf.arity_le
  rw [params, List.length_append, length] at limit
  rw [length] at spread
  refine ⟨d, u, spread, fun t' => ?_⟩
  obtain ⟨e, v, collected, -, signature', program'⟩ := asCollector_build wf'
    (by rw [signature]) (Kind.isViewableAs_refl _ _) nonVoid limit t'
  have equal : (e.signature == h.signature) = true := by
    rw [signature', signature]
    exact beq_signature_of_trailing params alike
  refine ⟨e, v, collected, equal, fun host n args conform => ?_⟩
  have conform' := (conform_congr (Signature.beq_iff_parts.1 equal).2 args).2 conform
  rw [e.invokeExact_of_conform _ conform', h.invokeExact_of_conform _ conform]
  have lengths : args.length = leading.length + trailing.length := by
    rw [conform.length_eq, params, List.length_append]
  have fits : (args.take leading.length).length = leading.length := by
    simp [lengths]
  have counted : (args.drop leading.length).length = trailing.length := by
    simp [lengths]
  have gathered := @call_gathering _ _ _ _ _ _ _ host (n + 1) keeps' program' fits
    (counted.trans length)
  rw [List.take_append_drop] at gathered
  rw [gathered, call_spreading keeps program fits element counted,
    convertAll_of_beq same counted]
  show (runCode host n).call h _ = _
  rw [List.take_append_drop]

/-- What is collected into an array may be spread again. -/
theorem asSpreader_after_asCollector (wf : h.signature.WellFormed) (keeps : h.KeepsResult)
    (nonVoid : element ≠ .void) (positive : 0 < count)
    (params : h.signature.params = leading ++ [last]) (alike : (last == .arrayOf element) = true)
    (limit : leading.length + count ≤ Signature.maxArity) (t : HandleTable) :
    ∃ d u, (Construction.asCollector h (.arrayOf element) count).build t = (.ok d, u) ∧ ∀ t',
      ∃ e v, (Construction.asSpreader d (.arrayOf element) count).build t' = (.ok e, v) ∧
        (e.signature == h.signature) = true ∧
        ∀ front v, Conform (front ++ [v]) h.signature.params →
          (∀ own items, v = .array own items → items.length = count → ∀ host n,
            e.invokeExact (runCode host (n + 2)) (front ++ [v]) =
              h.invokeExact (runCode host n) (front ++ [.array element items])) ∧
          (∀ own items, v = .array own items → items.length ≠ count →
            e.FailsAtOnce 1 (front ++ [v]) (.wrongArgumentCount count items.length)) ∧
          (v = .null → e.FailsAtOnce 1 (front ++ [v]) (.classCast "null" "Object[]")) := by
  have viewable : (Kind.arrayOf element).isViewableAs last true = true :=
    Kind.isViewableAs_strict_iff.2 (.inl ((Kind.same_comm _ _).trans alike))
  obtain ⟨d, u, collected, wf', signature, program⟩ :=
    asCollector_build wf params viewable nonVoid limit t
  have keeps' : d.KeepsResult := keepsResult_of_calling program (by rw [signature])
  refine ⟨d, u, collected, fun t' => ?_⟩
  have same : ∀ k ∈ List.replicate count element, (element == k) = true := fun k mem => by
    rw [(List.mem_replicate.1 mem).2]
    exact BEq.rfl
  have convertible : ∀ k ∈ List.replicate count element, element.isConvertibleTo k = true :=
    fun k mem => by simp [Kind.isConvertibleTo, same k mem]
  have counted : (List.replicate count element).length = count := List.length_replicate
  have present : List.replicate count element ≠ [] :=
    List.ne_nil_of_length_pos (by rwa [counted])
  obtain ⟨e, v, spread, -, signature', program'⟩ :=
    asSpreader_build wf' (by rw [signature]) present convertible t'
  rw [counted] at spread
  have equal : (e.signature == h.signature) = true := by
    rw [signature', signature]
    exact beq_signature_of_trailing params (beq_of_forall₂ (.cons alike .nil))
  refine ⟨e, v, spread, equal, fun front v conform => ?_⟩
  have conform' := (conform_congr (Signature.beq_iff_parts.1 equal).2 _).2 conform
  have fits : front.length = leading.length := by
    have lengths := conform.length_eq
    rw [params] at lengths
    simpa using lengths
  -- The first item already tells what is no array of the right length.
  have refuses : ∀ failure, Step.spreadItem 0 count v = Exec.refuse failure →
      e.FailsAtOnce 1 (front ++ [v]) failure := fun failure refused =>
    failsAtOnce_of_refused program' present fits conform' (counted.symm ▸ refused)
  refine ⟨fun own items array lengths host n => ?_, fun own items array lengths => ?_,
    fun null => ?_⟩
  · subst array
    have ready : Conform (front ++ [.array element items]) h.signature.params := by
      rw [params] at conform ⊢
      have before := conform.take rfl
      rw [List.take_left' fits] at before
      refine List.rel_append before (.cons ?_ .nil)
      rw [Value.conforms_congr _ alike]
      exact RefType.isSubtypeOf_refl _
    rw [e.invokeExact_of_conform _ conform', h.invokeExact_of_conform _ ready,
      call_spreading keeps' program' fits own (lengths.trans counted.symm),
      convertAll_of_beq same (lengths.trans counted.symm)]
    exact call_gathering keeps program fits lengths
  · subst array
    exact refuses _ (Step.spreadItem_of_other_length lengths)
  · subst null
    exact refuses _ rfl

/-- Spreading and collecting undo each other. Where an array is spread over trailing parameters of
its element kind, collecting these into such an array leads back to the handle. Where trailing
arguments are collected into the last parameter, spreading an array over them leads back to the
handle as well, on arrays with as many items: the handle gets a fresh array of these items. Any
other array is refused for its length and `null` for being no array, before anything is run. -/
theorem spreading_and_collecting (wf : h.signature.WellFormed) (keeps : h.KeepsResult)
    (nonVoid : element ≠ .void) (positive : 0 < count) :
    ((h.signature.paramsFrom (h.arity - count) == List.replicate count element) = true → ∀ t,
      ∃ d u, (Construction.asSpreader h (.arrayOf element) count).build t = (.ok d, u) ∧ ∀ t',
        ∃ e v, (Construction.asCollector d (.arrayOf element) count).build t' = (.ok e, v) ∧
          (e.signature == h.signature) = true ∧ ∀ host n args, Conform args h.signature.params →
            e.invokeExact (runCode host (n + 2)) args = h.invokeExact (runCode host n) args) ∧
    ∀ last, h.signature.params.getLast? = some last → (last == .arrayOf element) = true →
      h.arity - 1 + count ≤ Signature.maxArity → ∀ t,
      ∃ d u, (Construction.asCollector h (.arrayOf element) count).build t = (.ok d, u) ∧ ∀ t',
        ∃ e v, (Construction.asSpreader d (.arrayOf element) count).build t' = (.ok e, v) ∧
          (e.signature == h.signature) = true ∧
          ∀ front v, Conform (front ++ [v]) h.signature.params →
            (∀ own items, v = .array own items → items.length = count → ∀ host n,
              e.invokeExact (runCode host (n + 2)) (front ++ [v]) =
                h.invokeExact (runCode host n) (front ++ [.array element items])) ∧
            (∀ own items, v = .array own items → items.length ≠ count →
              e.FailsAtOnce 1 (front ++ [v]) (.wrongArgumentCount count items.length)) ∧
            (v = .null → e.FailsAtOnce 1 (front ++ [v]) (.classCast "null" "Object[]")) := by
  refine ⟨fun alike t => asCollector_after_asSpreader wf keeps nonVoid positive
      (List.take_append_drop (h.arity - count) _).symm alike t,
    fun last found alike limit t => ?_⟩
  obtain ⟨leading, params⟩ := List.getLast?_eq_some_iff.1 found
  have limit : leading.length + count ≤ Signature.maxArity := by
    simpa [arity, Signature.arity, params] using limit
  exact asSpreader_after_asCollector wf keeps nonVoid positive params alike limit t

theorem spreading_and_collecting_pair :
    let h := ofHost 0 ⟨.int, [.int, .arrayOf .int]⟩
    let args := [.int 1, .array .int [.int 2, .int 3]]
    h.signature.WellFormed ∧ h.KeepsResult ∧ Kind.int ≠ .void ∧ 0 < 2 ∧
      Conform args h.signature.params ∧ ∃ d u e v,
        (Construction.asCollector h (.arrayOf .int) 2).build .empty = (.ok d, u) ∧
        (Construction.asSpreader d (.arrayOf .int) 2).build u = (.ok e, v) ∧
        e.invokeExact (runCode .echo 5) args = h.invokeExact (runCode .echo 3) args ∧
        (h.invokeExact (runCode .echo 3) args .empty).1 = .ok (.int 1) := by
  intro h args
  have wf : h.signature.WellFormed :=
    ⟨by decide, by simp [h, ofHost, Kind.int, Kind.arrayOf]⟩
  have nonVoid : Kind.int ≠ .void := by rintro ⟨⟩
  have conform : Conform args h.signature.params := .cons rfl (.cons rfl .nil)
  obtain ⟨-, collected⟩ :=
    spreading_and_collecting wf (show h.KeepsResult from rfl) nonVoid (by decide : 0 < 2)
  obtain ⟨d, u, made, spread⟩ := collected _ rfl BEq.rfl (by decide) .empty
  obtain ⟨e, v, made', -, runs⟩ := spread u
  obtain ⟨equal, -⟩ := runs [.int 1] _ conform
  exact ⟨wf, rfl, nonVoid, by decide, conform, d, u, e, v, made, made',
    equal .int _ rfl rfl .echo 3, rfl⟩

end Handle
end TypedHandles
