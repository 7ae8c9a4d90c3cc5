import TypedHandles.Proofs.Rewiring

/-!
Adapters that compute what they pass to their handle by other handles. Each calls these first, in
the order of the positions, and its handle last; the first call that fails is the outcome.

Collecting is the general one. A fold is a collector whose parameters are supplied twice, and
filters are collectors of one argument each, of which the one for the first position is the
outermost and so runs first.
-/
namespace TypedHandles

/-! What such adapters do. -/

/-- A computation does no more than a first part of it where that part fails. -/
def Exec.StopsWith {α β : Type} (x : Exec β) (first : Exec α) : Prop :=
  ∀ s e t, first s = (.error e, t) → x s = (.error e, t)

theorem Exec.StopsWith.bind {α β : Type} (first : Exec α) (rest : α → Exec β) :
    (first >>= rest).StopsWith first := fun _ _ _ failed => bind_of_error failed

/-- What a handle feeds another one with: its result, if it has one. -/
def Handle.fed (f : Handle) (result : Value) : List Value :=
  if f.signature.returnsVoid then [] else [result]

/-- How many arguments a handle feeds. -/
def Handle.feeds (f : Handle) : Nat := if f.signature.returnsVoid then 0 else 1

/-- Passes a value through a filter, if there is one. -/
def Runner.pass (run : Runner) : Option Handle × Value → Exec Value
  | (some f, v) => run.call f [v]
  | (none, v) => pure v

/-- The parameters that stand before a parameter with a filter, or without one. -/
def acceptedBy : Option Handle × Kind → List Kind
  | (some f, _) => f.signature.params
  | (none, kind) => [kind]

/-- Each filter takes one argument and returns what its parameter takes. -/
def FiltersFit (filters : List (Option Handle)) (kinds : List Kind) : Prop :=
  List.Forall₂ (fun filter kind => ∀ f, filter = some f →
    f.arity = 1 ∧ (f.signature.ret == kind) = true) filters kinds

namespace Program

variable {run : Runner} {limit : Nat} {frame : List Value} {bindings : List Binding}

/-- Bindings append a value each to the frame, so nothing else need be known of what follows. -/
theorem fill_bind_congr {α : Type} {f g : List Value → Exec α}
    (same : ∀ more, more.length = bindings.length → f (frame ++ more) = g (frame ++ more)) :
    fill run limit frame bindings >>= f = fill run limit frame bindings >>= g := by
  induction bindings generalizing frame with
  | nil =>
    have here := same [] rfl
    rw [List.append_nil] at here
    simpa only [fill, pure_bind] using here
  | cons b rest ih =>
    simp only [fill, bind_assoc]
    refine bind_congr fun v => ih fun more length => ?_
    rw [List.append_assoc]
    exact same (v :: more) (congrArg Nat.succ length)

/-- A program that ends in a call runs its bindings, and then the call on what they left. -/
theorem calling_perform_eq (target : Handle) (slots : List Slot) (args : List Value) :
    (calling args.length bindings target slots).perform run limit args = (do
      let last ← fill run limit args bindings
      let values ← Step.gather last slots
      let result ← run.call target values
      return target.signature.ret.kept result) := by
  unfold calling perform
  dsimp only
  rw [fill_append, bind_assoc]
  refine fill_bind_congr fun more length => ?_
  simp only [fill, Step.perform, bind_assoc, pure_bind]
  refine bind_congr fun values => bind_congr fun result => ?_
  have kept : (args ++ more ++ [result])[args.length + bindings.length]? = some result := by
    rw [← length, ← List.length_append, List.getElem?_concat_length]
  unfold resultSlot Kind.kept
  cases target.signature.ret.isVoid with
  | true => rfl
  | false =>
    show Exec.ofOption _ = _
    rw [kept]
    rfl

/-- A chain that passes a value of the frame through a filter, if there is one. -/
def Passes (frame : List Value) (chain : Slot × List (Slot → Binding))
    (item : Option Handle × Value) : Prop :=
  frame[chain.1]? = some item.2 ∧
    ∃ kind, chain.2 = item.1.toList.map fun f slot => ⟨kind, .call f [slot]⟩

theorem Passes.weaken {chains : List (Slot × List (Slot → Binding))}
    {items : List (Option Handle × Value)} (passes : List.Forall₂ (Passes frame) chains items)
    (more : List Value) : List.Forall₂ (Passes (frame ++ more)) chains items := by
  refine passes.imp fun chain item ⟨found, steps⟩ => ⟨?_, steps⟩
  rwa [List.getElem?_append_left (List.getElem?_eq_some_iff.1 found).1]

/-- A value that stands in the frame is gathered first, whatever is appended to the frame. -/
theorem gather_after_fill {slot : Slot} {v : Value} (found : frame[slot]? = some v)
    (slots : List Slot) :
    (do
      let last ← fill run limit frame bindings
      Step.gather last (slot :: slots)) = (do
      let values ← fill run limit frame bindings >>= (Step.gather · slots)
      return v :: values) := by
  rw [bind_assoc]
  refine fill_bind_congr fun more _ => ?_
  have still : (frame ++ more)[slot]? = some v := by
    rwa [List.getElem?_append_left (List.getElem?_eq_some_iff.1 found).1]
  rw [Step.gather, still]
  rfl

/-- Chains that are laid out one after the other pass their values in order. -/
theorem layout_passes {chains : List (Slot × List (Slot → Binding))}
    {items : List (Option Handle × Value)} (passes : List.Forall₂ (Passes frame) chains items) :
    (do
      let last ← fill run limit frame (layout frame.length chains).1
      Step.gather last (layout frame.length chains).2) = items.mapM run.pass := by
  induction chains generalizing frame items with
  | nil =>
    cases passes
    rfl
  | cons c rest ih =>
    obtain ⟨slot, steps⟩ := c
    cases passes with
    | @cons _ item _ items here others =>
      obtain ⟨filter, v⟩ := item
      obtain ⟨found, kind, rfl⟩ := here
      have found : frame[slot]? = some v := found
      rw [List.mapM_cons]
      cases filter with
      | none =>
        have later := ih others
        show (do
          let last ← fill run limit frame (layout frame.length rest).1
          Step.gather last (slot :: (layout frame.length rest).2)) = _
        rw [gather_after_fill found, later]
        show _ = (pure v : Exec Value) >>= _
        rw [pure_bind]
      | some f =>
        show (do
          let last ← fill run limit frame
            (⟨kind, .call f [slot]⟩ :: (layout (frame.length + 1) rest).1)
          Step.gather last (frame.length :: (layout (frame.length + 1) rest).2)) = _
        have called : (Step.call f [slot]).perform run limit kind frame = run.call f [v] := by
          have carries : Carries frame [slot] [v] := .cons found .nil
          show Step.gather frame [slot] >>= _ = _
          rw [Step.gather_of_carries carries, pure_bind]
        simp only [fill, bind_assoc, called]
        refine bind_congr fun w => ?_
        -- The result stands in the first slot after the frame, where the chain ends.
        have last : (frame ++ [w])[frame.length]? = some w := List.getElem?_concat_length
        have later := ih (Passes.weaken others [w])
        rw [List.length_append, List.length_singleton] at later
        rw [gather_after_fill last, later]

end Program

/-! Collecting and folding. -/

namespace Handle

variable {h d f : Handle} {t u : HandleTable} {pos : Nat}

/-- A handle of a signature that does a computation on arguments of it, over what it calls one level
below. -/
structure Runs (d : Handle) (s : Signature) (x : Runner → List Value → Exec Value) : Prop where
  signature : d.signature = s
  invoked : ∀ (host : Host) (n : Nat) (args : List Value), Conform args s.params →
    d.invokeExact (runCode host (n + 1)) args = x (runCode host n) args

theorem Runs.of_call {s : Signature} {x : Runner → List Value → Exec Value}
    (same : d.signature = s)
    (calls : ∀ (host : Host) (n : Nat) (args : List Value), args.length = d.arity →
      (runCode host (n + 1)).call d args = x (runCode host n) args) : d.Runs s x := by
  refine ⟨same, fun host n args conform => ?_⟩
  have conform : Conform args d.signature.params := same ▸ conform
  rw [d.invokeExact_of_conform _ conform]
  exact calls host n args conform.length_eq

theorem Runs.comesTo {s : Signature} {x : Runner → List Value → Exec Value} (runs : d.Runs s x)
    (host : Host) {args : List Value} (conform : Conform args s.params) :
    host.comesTo (d.invokeExact · args) = host.comesTo (x · args) := by
  refine (Exec.comesTo_add (fun n => d.invokeExact (runCode host n) args) 1).symm.trans ?_
  exact congrArg Exec.ComesTo (funext fun n => runs.invoked host n args conform)

theorem carries_fed (f : Handle) (args : List Value) (v : Value) :
    Carries (args ++ [v]) (List.replicate f.feeds args.length) (f.fed v) := by
  unfold feeds fed
  split
  · exact .nil
  · exact Carries.after args v []

/-- Calls a handle on the arguments from `pos` on, and another one on what that one is fed with
between the arguments ahead and those from `rest` on. -/
def feeding (h f : Handle) (pos rest : Nat) (run : Runner) (args : List Value) : Exec Value := do
  let v ← run.call f ((args.drop pos).take f.arity)
  run.call h (args.take pos ++ f.fed v ++ args.drop rest)

theorem call_feeding {rest : Nat} (keeps : h.KeepsResult)
    (program : d.program = .calling d.arity
      [⟨f.signature.ret, .call f (Program.slots pos (pos + f.arity))⟩] h
      (Program.slots 0 pos ++ List.replicate f.feeds d.arity ++ Program.slots rest d.arity))
    (inside : pos + f.arity ≤ d.arity) (host : Host) (n : Nat) (args : List Value)
    (lengths : args.length = d.arity) :
    (runCode host (n + 1)).call d args = h.feeding f pos rest (runCode host n) args := by
  rw [← lengths] at program inside
  have computed : Carries args (Program.slots pos (pos + f.arity))
      ((args.drop pos).take f.arity) := by
    have carries : Carries args (Program.slots pos (pos + f.arity)) _ := Carries.slots inside
    rwa [Nat.add_sub_cancel_left] at carries
  have front : Carries args (Program.slots 0 pos) (args.take pos) := .take (by omega)
  have carries : ∀ v, Carries (args ++ [v]) (Program.slots 0 pos ++
      List.replicate f.feeds args.length ++ Program.slots rest args.length)
      (args.take pos ++ f.fed v ++ args.drop rest) := fun v =>
    List.rel_append (List.rel_append (front.weaken _) (carries_fed f args v))
      ((Carries.drop args rest).weaken _)
  show d.program.perform (runCode host n) n args = _
  rw [program, Program.calling_one_perform carries]
  simp only [Step.perform, Step.gather_of_carries computed, pure_bind]
  exact bind_congr fun v => h.call_kept keeps host n _

/-- The parameters of a collector. -/
def collected (h f : Handle) (pos : Nat) : List Kind :=
  h.signature.params.take pos ++ f.signature.params ++ h.signature.params.drop (pos + f.feeds)

theorem collected_length (inside : pos + f.feeds ≤ h.arity) :
    (h.collected f pos).length + f.feeds = h.arity + f.arity := by
  have params : h.signature.params.length = h.arity := rfl
  have own : f.signature.params.length = f.arity := rfl
  unfold collected
  simp only [List.length_append, List.length_take, List.length_drop, params, own]
  omega

theorem collected_wellFormed (wf : h.signature.WellFormed)
    (nonVoid : ∀ k ∈ f.signature.params, k ≠ .void)
    (limit : (h.collected f pos).length ≤ Signature.maxArity) :
    Signature.WellFormed ⟨h.signature.ret, h.collected f pos⟩ :=
  wf.spliced nonVoid limit

/-- A collector runs its filter on the arguments in the place of what it feeds, and then its
handle. -/
theorem call_collector (keeps : h.KeepsResult)
    (made : (Construction.collectArguments h pos f).build t = (.ok d, u)) (host : Host) (n : Nat)
    (args : List Value) (lengths : args.length = d.arity) :
    (runCode host (n + 1)).call d args =
      h.feeding f pos (pos + f.arity) (runCode host n) args := by
  obtain ⟨inside, -, signature, program⟩ := collectArguments_eq_ok made
  have inside : pos + f.feeds ≤ h.arity := inside
  have enough : pos + f.arity ≤ d.arity := by
    have length := collected_length inside
    have feeds : f.feeds ≤ 1 := by
      unfold Handle.feeds
      split <;> decide
    show pos + f.arity ≤ d.signature.params.length
    rw [signature]
    show pos + f.arity ≤ (h.collected f pos).length
    omega
  exact call_feeding keeps program enough host n args lengths

theorem collectArguments_runs (keeps : h.KeepsResult)
    (made : (Construction.collectArguments h pos f).build t = (.ok d, u)) :
    d.Runs ⟨h.signature.ret, h.collected f pos⟩ (h.feeding f pos (pos + f.arity)) := by
  obtain ⟨-, -, signature, -⟩ := collectArguments_eq_ok made
  exact .of_call signature (call_collector keeps made)

theorem collectArguments_keepsResult
    (made : (Construction.collectArguments h pos f).build t = (.ok d, u)) : d.KeepsResult := by
  obtain ⟨-, -, signature, program⟩ := collectArguments_eq_ok made
  exact keepsResult_of_calling program (by rw [signature])

/-- A collector is accepted where its filter returns what it feeds and the new parameters fit. -/
theorem collectArguments_build (inside : pos + f.feeds ≤ h.arity)
    (returns : ∀ kind ∈ (h.signature.params.drop pos).take f.feeds,
      (kind == f.signature.ret) = true)
    (wf : Signature.WellFormed ⟨h.signature.ret, h.collected f pos⟩) (t : HandleTable) :
    ∃ d u, (Construction.collectArguments h pos f).build t = (.ok d, u) := by
  have within : pos + f.feeds ≤ h.signature.arity := inside
  have positions : Blueprint.requirePositions h.signature pos f.feeds = .ok () := by
    unfold Blueprint.requirePositions
    rw [if_neg (by omega)]
  have replaced : slice? h.signature.params pos (pos + f.feeds) =
      some ((h.signature.params.drop pos).take f.feeds) := by
    unfold slice?
    rw [if_pos ⟨Nat.le_add_right _ _, within⟩, Nat.add_sub_cancel_left]
  have same : ((h.signature.params.drop pos).take f.feeds).find? (· != f.signature.ret) = none :=
    List.find?_eq_none.2 fun kind mem => by simp [bne, returns kind mem]
  have made : h.signature.replaceParams pos (pos + f.feeds) f.signature.params =
      .ok ⟨h.signature.ret, h.collected f pos⟩ :=
    Signature.replaceParams_eq_ok_iff.2 ⟨⟨Nat.le_add_right _ _, inside⟩, rfl, wf⟩
  have accepted : ∃ b, Blueprint.collectArguments h pos f = .ok b := by
    unfold Blueprint.collectArguments
    dsimp only
    rw [show (if f.signature.returnsVoid = true then 0 else 1) = f.feeds from rfl, positions,
      replaced]
    dsimp only [Checked.ofOption, bind, Except.bind]
    split
    · next param found => cases same.symm.trans found
    · rw [made]
      exact ⟨_, rfl⟩
  obtain ⟨b, accepted⟩ := accepted
  unfold Construction.build
  dsimp only
  rw [accepted]
  exact ⟨_, _, rfl⟩

theorem eq_of_slice? {α : Type} {xs mid : List α} {start count : Nat}
    (found : slice? xs start (start + count) = some mid) : mid = (xs.drop start).take count := by
  unfold slice? at found
  split at found
  · rw [Nat.add_sub_cancel_left] at found
    exact (Option.some.inj found).symm
  · cases found

/-- What an accepted fold is. -/
theorem foldArguments_eq_ok
    (made : (Construction.foldArguments h pos f).build t = (.ok d, u)) :
    pos + (f.feeds + f.arity) ≤ h.arity ∧
      (∀ kind ∈ (h.signature.params.drop pos).take f.feeds, (kind == f.signature.ret) = true) ∧
      ((h.signature.params.drop (pos + f.feeds)).take f.arity == f.signature.params) = true ∧
      d.signature = ⟨h.signature.ret,
        h.signature.params.take pos ++ h.signature.params.drop (pos + f.feeds)⟩ ∧
      d.program = .calling d.arity
        [⟨f.signature.ret, .call f (Program.slots pos (pos + f.arity))⟩] h
        (Program.slots 0 pos ++ List.replicate f.feeds d.arity ++ Program.slots pos d.arity) := by
  have folded : Ends Halt.IsStatic (fun b =>
      pos + (f.feeds + f.arity) ≤ h.arity ∧
      (∀ kind ∈ (h.signature.params.drop pos).take f.feeds, (kind == f.signature.ret) = true) ∧
      ((h.signature.params.drop (pos + f.feeds)).take f.arity == f.signature.params) = true ∧
      b.signature = ⟨h.signature.ret,
        h.signature.params.take pos ++ h.signature.params.drop (pos + f.feeds)⟩ ∧
      b.program = .calling b.signature.arity
        [⟨f.signature.ret, .call f (Program.slots pos (pos + f.arity))⟩] h
        (Program.slots 0 pos ++ List.replicate f.feeds b.signature.arity ++
          Program.slots pos b.signature.arity)) (Blueprint.foldArguments h pos f) := by
    unfold Blueprint.foldArguments
    dsimp only
    rw [show (if f.signature.returnsVoid = true then 0 else 1) = f.feeds from rfl]
    refine (Blueprint.requirePositions_ends _ _ _).bind fun _ inside => ?_
    refine Ends.bind (Ends.ofOption fun _ found => eq_of_slice? found) fun replaced same => ?_
    subst same
    split
    · rfl
    · next found =>
      have returns := List.find?_eq_none.1 (Option.eq_none_iff_forall_ne_some.2 found)
      refine Ends.bind (Ends.ofOption fun _ found => eq_of_slice? found) fun following same => ?_
      subst same
      refine Ends.check rfl fun same => ?_
      refine (Ends.ofExcept (Signature.replaceParams_ends _ _ _ _)).bind fun s spec => ?_
      obtain ⟨-, -, signature, -⟩ := spec
      rw [List.append_nil] at signature
      refine ⟨inside, fun kind mem => ?_, by simpa [bne] using same, signature, rfl⟩
      simpa [bne] using returns kind mem
  exact Build.of_allocate folded made

/-- A fold runs its combiner on the arguments from its position on, and then its handle on what the
combiner feeds and on all arguments. -/
theorem foldArguments_runs (keeps : h.KeepsResult)
    (made : (Construction.foldArguments h pos f).build t = (.ok d, u)) :
    d.Runs ⟨h.signature.ret,
        h.signature.params.take pos ++ h.signature.params.drop (pos + f.feeds)⟩
      (h.feeding f pos pos) := by
  obtain ⟨inside, -, -, signature, program⟩ := foldArguments_eq_ok made
  have params : h.signature.params.length = h.arity := rfl
  have enough : pos + f.arity ≤ d.arity := by
    show pos + f.arity ≤ d.signature.params.length
    rw [signature]
    simp only [List.length_append, List.length_take, List.length_drop, params]
    omega
  exact .of_call signature (call_feeding keeps program enough)

end Handle

/-! Folds as collectors. -/

/-- The parameters at some positions in a row. -/
theorem Signature.Supplies.slots {s : Signature} {front mid back wanted : List Kind}
    (params : s.params = front ++ mid ++ back) (same : (mid == wanted) = true) :
    s.Supplies (Program.slots front.length (front.length + mid.length)) wanted := by
  have equal := forall₂_of_beq same
  have lengths : (Program.slots front.length (front.length + mid.length)).length = mid.length := by
    simp [Program.slots]
  refine List.forall₂_of_length_eq_of_get (lengths.trans equal.length_eq) fun i h₁ h₂ => ?_
  have inside : i < mid.length := lengths ▸ h₁
  refine ⟨mid[i], ?_, equal.get inside h₂⟩
  have slot : (Program.slots front.length (front.length + mid.length)).get ⟨i, h₁⟩ =
      front.length + i := by
    simp [Program.slots]
  rw [slot, params, List.append_assoc, List.getElem?_append_right (Nat.le_add_right _ _),
    Nat.add_sub_cancel_left, List.getElem?_append_left inside, List.getElem?_eq_getElem inside]

theorem picked_append {α : Type} (first second : List Nat) (items : List α) :
    picked (first ++ second) items = picked first items ++ picked second items :=
  List.filterMap_append

/-- The items at some positions in a row. -/
theorem picked_slots {α : Type} {items : List α} {start stop : Nat} (inside : stop ≤ items.length) :
    picked (Program.slots start stop) items = (items.drop start).take (stop - start) := by
  have range : ∀ source : Nat, source ∈ Program.slots start stop → source < items.length := by
    intro source mem
    have inside : start ≤ source ∧ source < start + (stop - start) := List.mem_range'_1.1 mem
    omega
  refine (picked_eq_iff range).2 ?_
  refine List.forall₂_of_length_eq_of_get (by simp [Program.slots]; omega) fun i h₁ h₂ => ?_
  have here : start + i < items.length := by
    simp only [List.length_take, List.length_drop] at h₂
    omega
  simp [Program.slots, here]

namespace Handle

variable {h d f : Handle} {t u : HandleTable} {pos : Nat}

/-- The sources of a collector that is to do what a fold does: the arguments that the combiner takes
go to the handle as well. -/
def foldSources (d f : Handle) (pos : Nat) : List Nat :=
  Program.slots 0 pos ++ Program.slots pos (pos + f.arity) ++ Program.slots pos d.arity

theorem picked_foldSources {args : List Value} (lengths : args.length = d.arity)
    (inside : pos + f.arity ≤ d.arity) :
    picked (d.foldSources f pos) args =
      args.take pos ++ (args.drop pos).take f.arity ++ args.drop pos := by
  have ahead : picked (Program.slots 0 pos) args = args.take pos := by
    rw [picked_slots (by omega), Nat.sub_zero, List.drop_zero]
  have taken : picked (Program.slots pos (pos + f.arity)) args = (args.drop pos).take f.arity := by
    rw [picked_slots (by omega), Nat.add_sub_cancel_left]
  have behind : picked (Program.slots pos d.arity) args = args.drop pos := by
    rw [picked_slots (Nat.le_of_eq lengths.symm), ← lengths, List.take_of_length_le (by simp)]
  unfold foldSources
  rw [picked_append, picked_append, ahead, taken, behind]

/-- Where the arguments of a combiner stand twice, collecting is folding. -/
theorem feeding_twice (run : Runner) {args : List Value} (inside : pos + f.arity ≤ args.length) :
    h.feeding f pos (pos + f.arity) run
        (args.take pos ++ (args.drop pos).take f.arity ++ args.drop pos) =
      h.feeding f pos pos run args := by
  have front : (args.take pos).length = pos := List.length_take_of_le (by omega)
  have own : ((args.drop pos).take f.arity).length = f.arity := by
    simp only [List.length_take, List.length_drop]
    omega
  have both : (args.take pos ++ (args.drop pos).take f.arity).length = pos + f.arity := by
    rw [List.length_append, front, own]
  unfold feeding
  rw [List.drop_left' both, List.append_assoc, List.take_left' front, List.drop_left' front,
    List.take_left' own]

/-- A fold has the parameters of its handle but for those that it feeds. -/
theorem fold_arity (inside : pos + f.feeds ≤ h.arity) (params : d.signature.params =
      h.signature.params.take pos ++ h.signature.params.drop (pos + f.feeds)) :
    d.arity + f.feeds = h.arity := by
  have own : h.signature.params.length = h.arity := rfl
  show d.signature.params.length + f.feeds = h.arity
  rw [params]
  simp only [List.length_append, List.length_take, List.length_drop, own]
  omega

/-- The parameters of a fold supply the collector: those ahead, those that the combiner takes, and
those behind, which begin with the ones that the combiner takes. -/
theorem foldSources_supplies (inside : pos + (f.feeds + f.arity) ≤ h.arity)
    (params : d.signature.params =
      h.signature.params.take pos ++ h.signature.params.drop (pos + f.feeds))
    (same : ((h.signature.params.drop (pos + f.feeds)).take f.arity == f.signature.params) =
      true) :
    d.signature.Supplies (d.foldSources f pos) (h.collected f pos) := by
  have own : h.signature.params.length = h.arity := rfl
  have arity : d.arity + f.feeds = h.arity := fold_arity (by omega) params
  have front : (h.signature.params.take pos).length = pos := List.length_take_of_le (by omega)
  have ahead : d.signature.Supplies (Program.slots 0 pos) (h.signature.params.take pos) := by
    have whole : d.signature.params = [] ++ h.signature.params.take pos ++
        h.signature.params.drop (pos + f.feeds) := by
      rw [params, List.nil_append]
    have supplies := Signature.Supplies.slots whole (beq_self_eq_true _)
    rwa [front, List.length_nil, Nat.zero_add] at supplies
  have taken : d.signature.Supplies (Program.slots pos (pos + f.arity)) f.signature.params := by
    have split : d.signature.params = h.signature.params.take pos ++
        (h.signature.params.drop (pos + f.feeds)).take f.arity ++
          (h.signature.params.drop (pos + f.feeds)).drop f.arity := by
      rw [List.append_assoc, List.take_append_drop, params]
    have mid : ((h.signature.params.drop (pos + f.feeds)).take f.arity).length = f.arity := by
      simp only [List.length_take, List.length_drop, own]
      omega
    have supplies := Signature.Supplies.slots split same
    rwa [front, mid] at supplies
  have behind : d.signature.Supplies (Program.slots pos d.arity)
      (h.signature.params.drop (pos + f.feeds)) := by
    have whole : d.signature.params = h.signature.params.take pos ++
        h.signature.params.drop (pos + f.feeds) ++ [] := by
      rw [params, List.append_nil]
    have last : pos + (h.signature.params.drop (pos + f.feeds)).length = d.arity := by
      rw [List.length_drop, own]
      omega
    have supplies := Signature.Supplies.slots whole (beq_self_eq_true _)
    rwa [front, last] at supplies
  exact List.rel_append (List.rel_append ahead taken) behind

/-- A fold is the collector that takes its arguments in place, and passes those that the combiner
takes to the handle as well. -/
theorem foldArguments_as_collector (wf : h.signature.WellFormed) (keeps : h.KeepsResult)
    (made : (Construction.foldArguments h pos f).build t = (.ok d, u))
    (fits : d.arity + f.arity ≤ Signature.maxArity) (t' : HandleTable) :
    ∃ c v, (Construction.collectArguments h pos f).build t' = (.ok c, v) ∧
      ∃ e w, (Construction.permuteArguments c d.signature (d.foldSources f pos)).build v =
          (.ok e, w) ∧ d.Alike e := by
  obtain ⟨inside, returns, same, signature, -⟩ := foldArguments_eq_ok made
  have params : d.signature.params =
      h.signature.params.take pos ++ h.signature.params.drop (pos + f.feeds) := by
    rw [signature]
  have arity : d.arity + f.feeds = h.arity := fold_arity (by omega) params
  have wf' : Signature.WellFormed ⟨h.signature.ret, h.collected f pos⟩ := by
    have length : (h.collected f pos).length + f.feeds = h.arity + f.arity :=
      collected_length (by omega)
    refine collected_wellFormed wf (no_void_of_beq same fun k mem => ?_) (by omega)
    exact wf.no_void k (List.mem_of_mem_drop (List.mem_of_mem_take mem))
  obtain ⟨c, v, collects⟩ := collectArguments_build (by omega) returns wf' t'
  have collector := collectArguments_runs keeps collects
  have ret : (d.signature.ret == c.signature.ret) = true := by
    rw [signature, collector.signature]
    exact beq_self_eq_true _
  have supplies : d.signature.Supplies (d.foldSources f pos) c.signature.params := by
    rw [collector.signature]
    exact foldSources_supplies inside params same
  obtain ⟨e, w, permutes⟩ := (permuteArguments_build_iff v).2 ⟨ret, supplies⟩
  obtain ⟨same_signature, -, rewires⟩ :=
    permuteArguments_rewires (collectArguments_keepsResult collects) permutes
  refine ⟨c, v, collects, e, w, permutes, .of_conform same_signature.symm ?_⟩
  intro host args conform
  have conform' : Conform args d.signature.params := same_signature ▸ conform
  have lengths : args.length = d.arity := conform'.length_eq
  have fold := foldArguments_runs keeps made
  rw [fold.comesTo host (fold.signature ▸ conform'), rewires.comesTo host conform,
    collector.comesTo host (collector.signature ▸ rewires.conform args conform),
    picked_foldSources lengths (by omega)]
  exact congrArg Exec.ComesTo (funext fun n => (feeding_twice _ (by omega)).symm)

end Handle

/-! Filtering. -/

section

variable {pos : Nat} {filters : List (Option Handle)}

theorem Blueprint.filterAt_succ (i : Nat) :
    filterAt (pos + 1) filters (i + 1) = filterAt pos filters i := by
  unfold filterAt
  simp only [Nat.add_lt_add_iff_right, Nat.add_sub_add_right]

theorem Blueprint.filterAt_cons (filter : Option Handle) (i : Nat) :
    filterAt 0 (filter :: filters) (i + 1) = filterAt 0 filters i := rfl

theorem Blueprint.filterAt_nil (i : Nat) : filterAt pos [] i = none := by
  unfold filterAt
  split <;> rfl

/-- Items with the filters that stand before them: there are none ahead of the given ones and none
behind. -/
theorem mapIdx_filterAt {α : Type} {xs : List α} (inside : pos + filters.length ≤ xs.length) :
    xs.mapIdx (fun i x => (Blueprint.filterAt pos filters i, x)) =
      (xs.take pos).map (none, ·) ++ filters.zip (xs.drop pos) ++
        (xs.drop (pos + filters.length)).map (none, ·) := by
  induction pos generalizing xs with
  | zero =>
    induction filters generalizing xs with
    | nil =>
      refine List.ext_getElem (by simp) fun i _ _ => ?_
      simp [Blueprint.filterAt_nil]
    | cons filter rest ih =>
      cases xs with
      | nil => simp at inside
      | cons x xs =>
        have later := @ih xs (by simpa using inside)
        simp only [List.mapIdx_cons, Blueprint.filterAt_cons, later]
        simp [Blueprint.filterAt]
  | succ pos ih =>
    cases xs with
    | nil => simp at inside
    | cons x xs =>
      have later := @ih xs (by simp at inside; omega)
      simp only [List.mapIdx_cons, Blueprint.filterAt_succ, later]
      simp [Blueprint.filterAt, Nat.add_right_comm]

/-- Filters that fit stand each before one parameter. -/
theorem FiltersFit.length_accepted {kinds : List Kind} (fit : FiltersFit filters kinds) :
    ((filters.zip kinds).flatMap acceptedBy).length = filters.length := by
  induction fit with
  | nil => rfl
  | @cons filter kind filters kinds here _ ih =>
    rw [List.zip_cons_cons, List.flatMap_cons, List.length_append, ih, List.length_cons]
    cases filter with
    | none => exact Nat.add_comm _ _
    | some f =>
      have unary : (acceptedBy (some f, kind)).length = 1 := (here f rfl).1
      rw [unary, Nat.add_comm]

theorem zip_take_length {α β : Type} (xs : List α) (ys : List β) :
    xs.zip (ys.take xs.length) = xs.zip ys := by
  refine List.ext_getElem (by simp) fun i _ _ => ?_
  simp

theorem flatMap_of_singles {α β : Type} {f : α → List β} {xs : List α} {ys : List β}
    (singles : List.Forall₂ (fun x y => f x = [y]) xs ys) : xs.flatMap f = ys := by
  induction singles with
  | nil => rfl
  | cons here _ ih =>
    rw [List.flatMap_cons, here, ih]
    rfl

/-- The parameters of an accepted filter, and that the filters fit, read off index by index. -/
theorem Blueprint.Filtered.split {own params : List Kind}
    (filtered : Filtered own pos filters params) (inside : pos + filters.length ≤ own.length) :
    FiltersFit filters ((own.drop pos).take filters.length) ∧
      params = own.take pos ++ (filters.zip (own.drop pos)).flatMap acceptedBy ++
        own.drop (pos + filters.length) := by
  obtain ⟨lengths, each⟩ := filtered
  constructor
  · refine List.forall₂_of_length_eq_of_get (by simp; omega) fun i h₁ h₂ f found => ?_
    have here : pos + i < own.length := by omega
    have present : filterAt pos filters (pos + i) = some f := by
      unfold filterAt
      rw [if_neg (by omega), Nat.add_sub_cancel_left, List.getElem?_eq_getElem h₁]
      exact congrArg Option.join (congrArg some found)
    rcases each (pos + i) (lengths ▸ here) here with ⟨absent, -⟩ | ⟨f', present', unary, same⟩
    · cases absent.symm.trans present
    · cases present'.symm.trans present
      refine ⟨congrArg List.length unary, ?_⟩
      simpa using same
  · have accepted : params =
        (own.mapIdx fun i kind => (filterAt pos filters i, kind)).flatMap acceptedBy := by
      have singles : List.Forall₂ (fun item kind => acceptedBy item = [kind])
          (own.mapIdx fun i kind => (filterAt pos filters i, kind)) params := by
        refine List.forall₂_of_length_eq_of_get (by simp [lengths]) fun i h₁ h₂ => ?_
        have here : i < own.length := lengths ▸ h₂
        simp only [List.get_eq_getElem, List.getElem_mapIdx]
        rcases each i h₂ here with ⟨absent, same⟩ | ⟨f, present, unary, -⟩
        · rw [absent, same]
          rfl
        · rw [present]
          exact unary
      exact (flatMap_of_singles singles).symm
    have gaps : ∀ kinds : List Kind,
        (kinds.map fun kind => ((none : Option Handle), kind)).flatMap acceptedBy = kinds := by
      intro kinds
      rw [List.flatMap_map]
      exact List.flatMap_singleton' kinds
    rw [accepted, mapIdx_filterAt inside, List.flatMap_append, List.flatMap_append, gaps, gaps]

end

namespace Handle

variable {h d : Handle} {t u : HandleTable} {pos : Nat} {filters : List (Option Handle)}

/-- The parameters of a handle whose arguments are filtered, from the first filter on. -/
def filteredFrom (h : Handle) (pos : Nat) (filters : List (Option Handle)) : List Kind :=
  (filters.zip (h.signature.params.drop pos)).flatMap acceptedBy ++
    h.signature.params.drop (pos + filters.length)

/-- The parameters of a handle whose arguments are filtered. -/
def filtered (h : Handle) (pos : Nat) (filters : List (Option Handle)) : List Kind :=
  h.signature.params.take pos ++ h.filteredFrom pos filters

/-- Passes arguments through filters in the order of the positions, and calls a handle on what comes
out between the others. -/
def filtering (h : Handle) (pos : Nat) (filters : List (Option Handle)) (run : Runner)
    (args : List Value) : Exec Value := do
  let passed ← (filters.zip (args.drop pos)).mapM run.pass
  run.call h (args.take pos ++ passed ++ args.drop (pos + filters.length))

/-- What an accepted handle with filtered arguments is. -/
theorem filterArguments_eq_ok
    (made : (Construction.filterArguments h pos filters).build t = (.ok d, u)) :
    pos + filters.length ≤ h.arity ∧
      FiltersFit filters ((h.signature.params.drop pos).take filters.length) ∧
      d.signature.WellFormed ∧ d.signature = ⟨h.signature.ret, h.filtered pos filters⟩ ∧
      let laid := Program.layout h.arity (h.signature.params.mapIdx fun slot param =>
        (slot, (Blueprint.filterAt pos filters slot).toList.map fun filter slot =>
          (⟨param, .call filter [slot]⟩ : Binding)))
      d.program = .calling h.arity laid.1 h laid.2 := by
  have accepted : Ends Halt.IsStatic (fun b =>
      pos + filters.length ≤ h.arity ∧
      FiltersFit filters ((h.signature.params.drop pos).take filters.length) ∧
      b.signature.WellFormed ∧ b.signature = ⟨h.signature.ret, h.filtered pos filters⟩ ∧
      let laid := Program.layout h.arity (h.signature.params.mapIdx fun slot param =>
        (slot, (Blueprint.filterAt pos filters slot).toList.map fun filter slot =>
          (⟨param, .call filter [slot]⟩ : Binding)))
      b.program = .calling h.arity laid.1 h laid.2)
      (Blueprint.filterArguments h pos filters) := by
    unfold Blueprint.filterArguments
    refine (Blueprint.requirePositions_ends _ _ _).bind fun _ inside => ?_
    refine (Blueprint.filteredParams_ends h.signature pos filters).bind fun params spec => ?_
    refine (Ends.ofExcept (Signature.make_ends _ _)).bind fun s made => ?_
    obtain ⟨rfl, wellFormed⟩ := made
    obtain ⟨fit, split⟩ := spec.split inside
    have same : params = h.filtered pos filters := split.trans (List.append_assoc _ _ _)
    exact ⟨inside, fit, wellFormed, by rw [same], rfl⟩
  exact Build.of_allocate accepted made

theorem filtered_length (inside : pos + filters.length ≤ h.arity)
    (fit : FiltersFit filters ((h.signature.params.drop pos).take filters.length)) :
    (h.filtered pos filters).length = h.arity := by
  have params : h.signature.params.length = h.arity := rfl
  have accepted := fit.length_accepted
  rw [zip_take_length] at accepted
  simp only [filtered, filteredFrom, List.length_append, accepted, List.length_take,
    List.length_drop, params]
  omega

theorem mapM_pass_gaps (run : Runner) (values : List Value) :
    (values.map fun v => ((none : Option Handle), v)).mapM run.pass = pure values := by
  induction values with
  | nil => rfl
  | cons v values ih =>
    rw [List.map_cons, List.mapM_cons, ih]
    rfl

/-- A handle with filtered arguments runs the filters, and then its handle. -/
theorem filterArguments_runs (keeps : h.KeepsResult)
    (made : (Construction.filterArguments h pos filters).build t = (.ok d, u)) :
    d.Runs ⟨h.signature.ret, h.filtered pos filters⟩ (h.filtering pos filters) := by
  obtain ⟨inside, fit, -, signature, program⟩ := filterArguments_eq_ok made
  have params : h.signature.params.length = h.arity := rfl
  refine .of_call signature fun host n args lengths => ?_
  have own : args.length = h.arity := by
    rw [lengths, arity, signature]
    exact filtered_length inside fit
  have passes : List.Forall₂ (Program.Passes args)
      (h.signature.params.mapIdx fun slot param =>
        (slot, (Blueprint.filterAt pos filters slot).toList.map fun filter slot =>
          (⟨param, .call filter [slot]⟩ : Binding)))
      (args.mapIdx fun i v => (Blueprint.filterAt pos filters i, v)) := by
    refine List.forall₂_of_length_eq_of_get (by simp [own, params]) fun i h₁ h₂ => ?_
    have here : i < args.length := by simpa using h₂
    have there : i < h.signature.params.length := by simpa using h₁
    exact ⟨by simp [here], h.signature.params[i], by simp⟩
  show d.program.perform (runCode host n) n args = _
  rw [program, ← own, Program.calling_perform_eq, ← bind_assoc, Program.layout_passes passes,
    mapIdx_filterAt (own ▸ inside), List.mapM_append, List.mapM_append, mapM_pass_gaps,
    mapM_pass_gaps]
  simp only [pure_bind, bind_assoc]
  exact bind_congr fun passed => h.call_kept keeps host n _

/-! Filters as collectors. -/

/-- Collects the filters that there are one at a time, from the last position to the first. -/
def collectFilters (h : Handle) : Nat → List (Option Handle) → Build Handle
  | _, [] => pure h
  | pos, none :: rest => h.collectFilters (pos + 1) rest
  | pos, some f :: rest => do
    let later ← h.collectFilters (pos + 1) rest
    (Construction.collectArguments later pos f).build

theorem filtering_nil (run : Runner) (args : List Value) :
    h.filtering pos [] run args = run.call h args := by
  unfold filtering
  rw [List.zip_nil_left, List.mapM_nil, pure_bind, List.append_nil, List.length_nil, Nat.add_zero,
    List.take_append_drop]

/-- A gap leaves its argument to those ahead. -/
theorem filtering_none {rest : List (Option Handle)} {args : List Value}
    (inside : pos < args.length) (run : Runner) :
    h.filtering pos (none :: rest) run args = h.filtering (pos + 1) rest run args := by
  unfold filtering
  rw [List.drop_eq_getElem_cons inside, List.zip_cons_cons, List.mapM_cons]
  simp only [Runner.pass, pure_bind, bind_assoc, List.take_succ_eq_append_getElem inside,
    List.length_cons, List.append_assoc, List.nil_append, List.cons_append, Nat.add_assoc,
    Nat.add_comm 1]

/-- A filter runs ahead of those behind it, and its result takes the place of its argument. -/
theorem filtering_some {f : Handle} {rest : List (Option Handle)} {args : List Value}
    (inside : pos < args.length) (run : Runner) :
    h.filtering pos (some f :: rest) run args = (do
      let w ← run.call f [args[pos]]
      h.filtering (pos + 1) rest run (args.take pos ++ w :: args.drop (pos + 1))) := by
  have front : (args.take pos).length = pos := List.length_take_of_le (Nat.le_of_lt inside)
  unfold filtering
  rw [List.drop_eq_getElem_cons inside, List.zip_cons_cons, List.mapM_cons]
  simp only [Runner.pass, pure_bind, bind_assoc]
  refine bind_congr fun w => ?_
  have behind : ∀ count, (args.take pos ++ w :: args.drop (pos + 1)).drop (pos + 1 + count) =
      args.drop (pos + 1 + count) := by
    intro count
    rw [List.append_cons, ← List.drop_drop, List.drop_left' (by simp [front]), List.drop_drop]
  have ahead : (args.take pos ++ w :: args.drop (pos + 1)).take (pos + 1) =
      args.take pos ++ [w] := by
    rw [List.append_cons, List.take_left' (by simp [front])]
  have here := behind 0
  rw [Nat.add_zero] at here
  rw [here, behind, ahead]
  simp only [List.length_cons, List.append_assoc, List.nil_append, List.cons_append,
    Nat.add_assoc, Nat.add_comm 1]

/-- A handle that comes to what filtering comes to. -/
structure ComesToFiltering (c h : Handle) (pos : Nat) (filters : List (Option Handle)) : Prop where
  keeps : c.KeepsResult
  signature : c.signature = ⟨h.signature.ret, h.filtered pos filters⟩
  comesTo : ∀ (host : Host) (args : List Value), args.length = h.arity →
    host.comesTo (·.call c args) = host.comesTo (h.filtering pos filters · args)

section

variable {f later : Handle} {rest : List (Option Handle)}

theorem filtered_nil : h.filtered pos [] = h.signature.params :=
  List.take_append_drop pos h.signature.params

theorem filteredFrom_none (inside : pos < h.signature.params.length) :
    h.filteredFrom pos (none :: rest) =
      h.signature.params[pos] :: h.filteredFrom (pos + 1) rest := by
  unfold filteredFrom
  rw [List.drop_eq_getElem_cons inside, List.zip_cons_cons, List.flatMap_cons, acceptedBy,
    List.length_cons, Nat.add_assoc, Nat.add_comm 1]
  rfl

theorem filteredFrom_some (inside : pos < h.signature.params.length) :
    h.filteredFrom pos (some f :: rest) =
      f.signature.params ++ h.filteredFrom (pos + 1) rest := by
  unfold filteredFrom
  rw [List.drop_eq_getElem_cons inside, List.zip_cons_cons, List.flatMap_cons, acceptedBy,
    List.length_cons, Nat.add_assoc, Nat.add_comm 1, List.append_assoc]

theorem filtered_succ (inside : pos < h.signature.params.length) :
    h.filtered (pos + 1) rest = h.signature.params.take pos ++
      h.signature.params[pos] :: h.filteredFrom (pos + 1) rest := by
  unfold filtered
  rw [List.take_succ_eq_append_getElem inside, List.append_assoc]
  rfl

/-- Filters behind the first one fit as well. -/
theorem FiltersFit.tail {filter : Option Handle} (inside : pos < h.signature.params.length)
    (fit : FiltersFit (filter :: rest) ((h.signature.params.drop pos).take (rest.length + 1))) :
    (∀ f, filter = some f →
      f.arity = 1 ∧ (f.signature.ret == h.signature.params[pos]) = true) ∧
      FiltersFit rest ((h.signature.params.drop (pos + 1)).take rest.length) := by
  rw [List.drop_eq_getElem_cons inside, List.take_succ_cons] at fit
  exact List.forall₂_cons.1 fit

/-- A filter returns something, because no parameter is `void`. -/
theorem feeds_of_returns (wf : h.signature.WellFormed) (inside : pos < h.signature.params.length)
    (returns : (f.signature.ret == h.signature.params[pos]) = true) :
    f.signature.returnsVoid = false := by
  have given := wf.no_void _ (List.getElem_mem inside)
  rw [Signature.returnsVoid, Kind.isVoid_congr returns]
  exact Bool.eq_false_iff.2 fun void => given (Kind.isVoid_iff.1 void)

/-- One more filter, for the position ahead of the others, is collected. -/
theorem ComesToFiltering.build (comes : later.ComesToFiltering h (pos + 1) rest)
    (wf : h.signature.WellFormed) (inside : pos < h.signature.params.length)
    (returns : (f.signature.ret == h.signature.params[pos]) = true)
    (length : (h.filtered pos (some f :: rest)).length = h.arity)
    (nonVoid : ∀ k ∈ h.filteredFrom pos (some f :: rest), k ≠ .void) (t : HandleTable) :
    ∃ c u, (Construction.collectArguments later pos f).build t = (.ok c, u) ∧
      c.signature = ⟨h.signature.ret, h.filtered pos (some f :: rest)⟩ := by
  have front : (h.signature.params.take pos).length = pos :=
    List.length_take_of_le (Nat.le_of_lt inside)
  have feeds : f.feeds = 1 := by
    unfold Handle.feeds
    rw [feeds_of_returns wf inside returns]
    rfl
  have ret : later.signature.ret = h.signature.ret := by rw [comes.signature]
  -- The parameters behind are filtered already, and the one at the position stands as it was.
  have own : later.signature.params = h.signature.params.take pos ++
      h.signature.params[pos] :: h.filteredFrom (pos + 1) rest := by
    rw [comes.signature]
    exact filtered_succ inside
  have enough : pos + f.feeds ≤ later.arity := by
    show pos + f.feeds ≤ later.signature.params.length
    rw [own, feeds, List.length_append, front, List.length_cons]
    omega
  have replaced : ∀ kind ∈ (later.signature.params.drop pos).take f.feeds,
      (kind == f.signature.ret) = true := by
    intro kind mem
    rw [own, List.drop_left' front, feeds, List.take_succ_cons, List.take_zero,
      List.mem_singleton] at mem
    rw [mem]
    exact (Kind.same_comm _ _).trans returns
  have collected : later.collected f pos = h.filtered pos (some f :: rest) := by
    unfold Handle.collected filtered
    rw [own, feeds, List.take_left' front, List.append_cons,
      List.drop_left' (by rw [List.length_append, front]; rfl), filteredFrom_some inside,
      List.append_assoc]
  have wellFormed : Signature.WellFormed ⟨later.signature.ret, later.collected f pos⟩ := by
    rw [collected]
    refine ⟨length.trans_le wf.arity_le, fun k mem => ?_⟩
    rcases List.mem_append.1 mem with mem | mem
    · exact wf.no_void k (List.mem_of_mem_take mem)
    · exact nonVoid k mem
  obtain ⟨c, u, made⟩ := collectArguments_build enough replaced wellFormed t
  refine ⟨c, u, made, ?_⟩
  rw [(collectArguments_runs comes.keeps made).signature, ret, collected]

/-- The filter that is collected last runs first: its collector is the outermost. -/
theorem ComesToFiltering.collect {c : Handle} (comes : later.ComesToFiltering h (pos + 1) rest)
    (made : (Construction.collectArguments later pos f).build t = (.ok c, u))
    (signature : c.signature = ⟨h.signature.ret, h.filtered pos (some f :: rest)⟩)
    (length : (h.filtered pos (some f :: rest)).length = h.arity)
    (inside : pos < h.signature.params.length) (unary : f.arity = 1)
    (feeds : f.signature.returnsVoid = false) :
    c.ComesToFiltering h pos (some f :: rest) := by
  refine ⟨collectArguments_keepsResult made, signature, fun host args lengths => ?_⟩
  have at_pos : pos < args.length := Nat.lt_of_lt_of_eq inside lengths.symm
  have own : args.length = c.arity := by
    rw [arity, signature]
    exact lengths.trans length.symm
  have taken : (args.drop pos).take f.arity = [args[pos]] := by
    rw [List.drop_eq_getElem_cons at_pos, unary]
    rfl
  have calls : ∀ n, (runCode host (n + 1)).call c args = (do
      let w ← (runCode host n).call f [args[pos]]
      (runCode host n).call later (args.take pos ++ w :: args.drop (pos + 1))) := by
    intro n
    rw [call_collector comes.keeps made host n args own]
    unfold feeding fed
    rw [taken, unary, feeds]
    simp only [Bool.false_eq_true, if_false, List.append_assoc, List.singleton_append]
  have deepens : Exec.Deepens fun n => (runCode host n).call f [args[pos]] :=
    fun _ _ le => runCode_haltsOr host le _ _
  have replaced : ∀ w, (args.take pos ++ w :: args.drop (pos + 1)).length = h.arity := by
    intro w
    simp only [List.length_append, List.length_take, List.length_cons, List.length_drop]
    omega
  calc host.comesTo (·.call c args)
    _ = Exec.ComesTo fun n => (runCode host (n + 1)).call c args :=
      (Exec.comesTo_add (fun n => (runCode host n).call c args) 1).symm
    _ = (host.comesTo (·.call f [args[pos]])).andThen fun w =>
        host.comesTo (·.call later (args.take pos ++ w :: args.drop (pos + 1))) := by
      simp only [calls]
      exact Exec.comesTo_bind deepens _
    _ = (host.comesTo (·.call f [args[pos]])).andThen fun w =>
        host.comesTo (h.filtering (pos + 1) rest · (args.take pos ++ w :: args.drop (pos + 1))) :=
      congrArg _ (funext fun w => comes.comesTo host _ (replaced w))
    _ = host.comesTo (h.filtering pos (some f :: rest) · args) := by
      simp only [filtering_some at_pos]
      exact (Exec.comesTo_bind deepens _).symm

end

/-- Filters that fit are collected one after the other, and do what filtering does. -/
theorem collectFilters_comesTo (wf : h.signature.WellFormed) (keeps : h.KeepsResult)
    (inside : pos + filters.length ≤ h.arity)
    (fit : FiltersFit filters ((h.signature.params.drop pos).take filters.length))
    (nonVoid : ∀ k ∈ h.filteredFrom pos filters, k ≠ .void) (t : HandleTable) :
    ∃ c u, h.collectFilters pos filters t = (.ok c, u) ∧ c.ComesToFiltering h pos filters := by
  induction filters generalizing pos with
  | nil =>
    refine ⟨h, t, rfl, keeps, ?_, fun host args lengths => ?_⟩
    · exact Signature.ext rfl filtered_nil.symm
    · exact congrArg Exec.ComesTo (funext fun n => (filtering_nil _ args).symm)
  | cons filter rest ih =>
    have here : pos < h.signature.params.length := by
      show pos < h.arity
      simp only [List.length_cons] at inside
      omega
    have length := filtered_length inside fit
    obtain ⟨fits, behind⟩ := FiltersFit.tail here fit
    have inside' : pos + 1 + rest.length ≤ h.arity := by
      simp only [List.length_cons] at inside
      omega
    cases filter with
    | none =>
      rw [filteredFrom_none here] at nonVoid
      obtain ⟨c, u, made, comes⟩ := ih inside' behind (List.forall_mem_cons.1 nonVoid).2
      refine ⟨c, u, made, comes.keeps, ?_, fun host args lengths => ?_⟩
      · rw [comes.signature, filtered_succ here, filtered, filteredFrom_none here]
      · rw [comes.comesTo host args lengths]
        refine congrArg Exec.ComesTo (funext fun n => ?_)
        exact (filtering_none (Nat.lt_of_lt_of_eq here lengths.symm) _).symm
    | some f =>
      obtain ⟨unary, returns⟩ := fits f rfl
      have others : ∀ k ∈ h.filteredFrom (pos + 1) rest, k ≠ .void := by
        intro k mem
        refine nonVoid k ?_
        rw [filteredFrom_some here]
        exact List.mem_append_right _ mem
      obtain ⟨later, v, before, comes⟩ := ih inside' behind others
      obtain ⟨c, u, made, signature⟩ := comes.build wf here returns length nonVoid v
      have feeds := feeds_of_returns wf here returns
      refine ⟨c, u, ?_, comes.collect made signature length here unary feeds⟩
      show (h.collectFilters (pos + 1) rest >>= fun later =>
        (Construction.collectArguments later pos f).build) t = _
      rw [bind_of_ok before]
      exact made

/-- Filtered arguments are collected ones. -/
theorem filterArguments_as_collectors (wf : h.signature.WellFormed) (keeps : h.KeepsResult)
    (made : (Construction.filterArguments h pos filters).build t = (.ok d, u)) (t' : HandleTable) :
    ∃ c v, h.collectFilters pos filters t' = (.ok c, v) ∧ d.Alike c := by
  obtain ⟨inside, fit, wellFormed, signature, -⟩ := filterArguments_eq_ok made
  rw [signature] at wellFormed
  obtain ⟨c, v, collects, comes⟩ := collectFilters_comesTo wf keeps inside fit
    (fun k mem => wellFormed.no_void k (List.mem_append_right _ mem)) t'
  refine ⟨c, v, collects, .of_conform (signature.trans comes.signature.symm) ?_⟩
  intro host args conform
  have filters := filterArguments_runs keeps made
  have lengths : args.length = h.arity := by
    rw [conform.length_eq, comes.signature]
    exact filtered_length inside fit
  rw [filters.comesTo host (comes.signature ▸ conform), ← comes.comesTo host args lengths]
  refine congrArg Exec.ComesTo (funext fun n => ?_)
  exact (c.invokeExact_of_conform _ conform).symm

/-! Filtered results. -/

/-- A handle with a filtered result runs the handle, and then the filter on its result. -/
theorem filterReturnValue_runs {g : Handle} (keeps : g.KeepsResult)
    (made : (Construction.filterReturnValue h g).build t = (.ok d, u)) :
    d.Runs ⟨g.signature.ret, h.signature.params⟩ (fun run args => do
      let v ← run.call h args
      run.call g (h.fed v)) := by
  have filters : Ends Halt.IsStatic (fun b =>
      b.signature = ⟨g.signature.ret, h.signature.params⟩ ∧
      b.program = .calling h.arity [⟨h.signature.ret, .call h (Program.slots 0 h.arity)⟩] g
        (List.replicate h.feeds h.arity)) (Blueprint.filterReturnValue h g) := by
    unfold Blueprint.filterReturnValue
    refine Ends.check rfl fun _ => ⟨rfl, ?_⟩
    unfold feeds
    cases h.signature.returnsVoid <;> rfl
  obtain ⟨signature, program⟩ := Build.of_allocate filters made
  dsimp only at signature program
  refine .of_call signature fun host n args lengths => ?_
  have own : args.length = h.signature.arity := by
    rw [lengths, arity, signature]
    rfl
  have all : Step.gather args (Program.slots 0 args.length) = pure args := by
    rw [own]
    exact Step.gather_all own
  show d.program.perform (runCode host n) n args = _
  rw [program, show h.arity = args.length from own.symm,
    Program.calling_one_perform fun v => carries_fed h args v]
  simp only [Step.perform, all, pure_bind]
  exact bind_congr fun v => g.call_kept keeps host n _

/-- A handle of which nothing else runs where a first part of what it does fails. -/
def StopsWith {α : Type} (d : Handle) (first : Runner → List Value → Exec α) : Prop :=
  ∀ (host : Host) (n : Nat) (args : List Value), Conform args d.signature.params →
    (d.invokeExact (runCode host (n + 1)) args).StopsWith (first (runCode host n) args)

theorem Runs.stopsWith {α : Type} {s : Signature} {x : Runner → List Value → Exec Value}
    {first : Runner → List Value → Exec α} (runs : d.Runs s x)
    (stops : ∀ run args, args.length = s.arity → (x run args).StopsWith (first run args)) :
    d.StopsWith first := by
  intro host n args conform
  rw [runs.signature] at conform
  rw [runs.invoked host n args conform]
  exact stops _ args conform.length_eq

theorem feeding_stopsWith (h f : Handle) (pos rest : Nat) (run : Runner) (args : List Value) :
    (h.feeding f pos rest run args).StopsWith (run.call f ((args.drop pos).take f.arity)) :=
  .bind _ _

/-- Filters behind one that fails do not run. -/
theorem filtering_stopsWith (run : Runner) {args : List Value}
    (inside : pos + filters.length ≤ args.length) {count : Nat} (le : count ≤ filters.length) :
    (h.filtering pos filters run args).StopsWith
      (((filters.take count).zip (args.drop pos)).mapM run.pass) := by
  have split : filters.zip (args.drop pos) =
      (filters.take count).zip ((args.drop pos).take count) ++
      (filters.drop count).zip ((args.drop pos).drop count) := by
    rw [← List.zip_append (by simp; omega), List.take_append_drop, List.take_append_drop]
  have counted : (filters.take count).length = count := List.length_take_of_le le
  have first : (filters.take count).zip ((args.drop pos).take count) =
      (filters.take count).zip (args.drop pos) := by
    have taken := zip_take_length (filters.take count) (args.drop pos)
    rwa [counted] at taken
  unfold filtering
  rw [split, first, List.mapM_append, bind_assoc]
  exact .bind _ _

/-- Filters, collectors and folds, with their signatures and in the order in which they run what
they are made of; the first call that fails is the outcome, and nothing runs after it. A fold is a
collector whose combiner and handle are supplied with the same arguments, where the collector is
not too long to be made; and filtered arguments are collected one at a time, from the last position
to the first. -/
theorem filtering_adapters (wf : h.signature.WellFormed) (keeps : h.KeepsResult) :
    let own := h.signature
    (∀ pos f t d u, (Construction.collectArguments h pos f).build t = (.ok d, u) →
      (d.Runs ⟨own.ret, own.params.take pos ++ f.signature.params ++
          own.params.drop (pos + f.feeds)⟩ fun run args => do
        let v ← run.call f ((args.drop pos).take f.arity)
        run.call h (args.take pos ++ f.fed v ++ args.drop (pos + f.arity))) ∧
      d.StopsWith fun run args => run.call f ((args.drop pos).take f.arity)) ∧
    (∀ pos f t d u, (Construction.foldArguments h pos f).build t = (.ok d, u) →
      (d.Runs ⟨own.ret, own.params.take pos ++ own.params.drop (pos + f.feeds)⟩ fun run args => do
        let v ← run.call f ((args.drop pos).take f.arity)
        run.call h (args.take pos ++ f.fed v ++ args.drop pos)) ∧
      (d.StopsWith fun run args => run.call f ((args.drop pos).take f.arity)) ∧
      (d.arity + f.arity ≤ Signature.maxArity → ∀ t',
        ∃ c v, (Construction.collectArguments h pos f).build t' = (.ok c, v) ∧
          ∃ e w, (Construction.permuteArguments c d.signature (d.foldSources f pos)).build v =
              (.ok e, w) ∧ d.Alike e)) ∧
    (∀ pos filters t d u, (Construction.filterArguments h pos filters).build t = (.ok d, u) →
      FiltersFit filters ((own.params.drop pos).take filters.length) ∧
      (d.Runs ⟨own.ret, own.params.take pos ++
          ((filters.zip (own.params.drop pos)).flatMap acceptedBy ++
            own.params.drop (pos + filters.length))⟩ fun run args => do
        let passed ← (filters.zip (args.drop pos)).mapM run.pass
        run.call h (args.take pos ++ passed ++ args.drop (pos + filters.length))) ∧
      (∀ count ≤ filters.length, d.StopsWith fun run args =>
        ((filters.take count).zip (args.drop pos)).mapM run.pass) ∧
      ∀ t', ∃ c v, h.collectFilters pos filters t' = (.ok c, v) ∧ d.Alike c) ∧
    ∀ g t d u, g.KeepsResult → (Construction.filterReturnValue h g).build t = (.ok d, u) →
      (d.Runs ⟨g.signature.ret, own.params⟩ fun run args => do
        let v ← run.call h args
        run.call g (h.fed v)) ∧
      d.StopsWith fun run args => run.call h args := by
  refine ⟨fun pos f t d u made => ?_, fun pos f t d u made => ?_,
    fun pos filters t d u made => ?_, fun g t d u keeps' made => ?_⟩
  · have runs := collectArguments_runs keeps made
    exact ⟨runs, runs.stopsWith fun run args _ => feeding_stopsWith h f pos _ run args⟩
  · have runs := foldArguments_runs keeps made
    exact ⟨runs, runs.stopsWith fun run args _ => feeding_stopsWith h f pos _ run args,
      foldArguments_as_collector wf keeps made⟩
  · obtain ⟨inside, fit, -, -, -⟩ := filterArguments_eq_ok made
    have runs := filterArguments_runs keeps made
    refine ⟨fit, runs, fun count le => ?_, filterArguments_as_collectors wf keeps made⟩
    refine runs.stopsWith fun run args lengths => filtering_stopsWith run ?_ le
    rw [lengths]
    exact inside.trans_eq (filtered_length inside fit).symm
  · have runs := filterReturnValue_runs keeps' made
    exact ⟨runs, runs.stopsWith fun run args _ => .bind _ _⟩

theorem filtering_adapters_sum :
    let h := Handle.ofHost 2 ⟨.int, [.int, .int]⟩
    let f := Handle.ofHost 3 ⟨.int, [.int, .int]⟩
    h.signature.WellFormed ∧ h.KeepsResult ∧ ∃ d u,
      (Construction.collectArguments h 0 f).build .empty = (.ok d, u) ∧
        (d.StopsWith fun run args => run.call f (args.take 2)) ∧
        (d.invokeExact (runCode .adding 5) [.int 1, .int 2, .int 3] .empty).1 = .ok (.int 6) := by
  intro h f
  have wf : h.signature.WellFormed := ⟨by decide, by simp [h, ofHost, Kind.int]⟩
  have made : (Construction.collectArguments h 0 f).build .empty = (.ok _, _) := rfl
  obtain ⟨collects, -, -, -⟩ := filtering_adapters wf rfl
  obtain ⟨-, stops⟩ := collects 0 f .empty _ _ made
  exact ⟨wf, rfl, _, _, made, stops, rfl⟩

end Handle
end TypedHandles
