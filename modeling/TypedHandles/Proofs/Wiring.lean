import TypedHandles.Proofs.Typing

/-!
Types of laid-out programs: chains of steps, argument by argument, and programs that end in one
call.
-/
namespace TypedHandles

variable {F : ClassLibrary} {K : Known}

/-- Steps that lead from a slot of one kind to a slot of another, wherever they stand. -/
inductive ChainTyped (F : ClassLibrary) (K : Known) : Kind → List (Slot → Binding) → Kind → Prop
  | nil {k : Kind} : ChainTyped F K k [] k
  | cons {k l m : Kind} {f : Slot → Binding} {rest : List (Slot → Binding)} :
      (∀ frame slot, frame[slot]? = some k →
        (f slot).step.Typed F K frame (f slot).kind ∧ (f slot).kind = l) →
      ChainTyped F K l rest m → ChainTyped F K k (f :: rest) m

/-- A chain on a slot of its first kind ends in a slot of its last one. -/
theorem chain_typed {frame : List Kind} {slot : Slot} {k l : Kind} {steps : List (Slot → Binding)}
    (h : ChainTyped F K k steps l) (found : frame[slot]? = some k) :
    BindingsTyped F K frame (Program.chain frame.length slot steps).1 ∧
      (frame ++ (Program.chain frame.length slot steps).1.map (·.kind))[
        (Program.chain frame.length slot steps).2]? = some l := by
  induction h generalizing frame slot with
  | nil => simpa [Program.chain, BindingsTyped] using found
  | @cons k l m f rest step _ ih =>
    obtain ⟨typed, kind⟩ := step frame slot found
    have next := ih (List.getElem?_concat_length (l := frame) (a := l))
    rw [List.length_append, List.length_singleton] at next
    simp only [Program.chain, BindingsTyped, List.map_cons, kind] at typed next ⊢
    refine ⟨⟨typed, next.1⟩, ?_⟩
    simpa using next.2

/-- One chain for each wanted kind, each on a slot of the frame. -/
def ChainsTyped (F : ClassLibrary) (K : Known) (frame : List Kind)
    (chains : List (Slot × List (Slot → Binding))) (wanted : List Kind) : Prop :=
  List.Forall₂ (fun c k => ∃ own, frame[c.1]? = some own ∧ ChainTyped F K own c.2 k) chains wanted

theorem ChainsTyped.weaken {frame : List Kind} {chains : List (Slot × List (Slot → Binding))}
    {wanted : List Kind} (h : ChainsTyped F K frame chains wanted) (more : List Kind) :
    ChainsTyped F K (frame ++ more) chains wanted := by
  refine List.Forall₂.imp (fun c k => ?_) h
  rintro ⟨own, found, typed⟩
  have inside := (List.getElem?_eq_some_iff.1 found).1
  exact ⟨own, by rw [List.getElem?_append_left inside, found], typed⟩

/-- Chains that are laid out one after the other feed what they were made for. -/
theorem layout_typed {frame : List Kind} {chains : List (Slot × List (Slot → Binding))}
    {wanted : List Kind} (h : ChainsTyped F K frame chains wanted) :
    BindingsTyped F K frame (Program.layout frame.length chains).1 ∧
      Feeds F.Has (frame ++ (Program.layout frame.length chains).1.map (·.kind))
        (Program.layout frame.length chains).2 wanted := by
  induction chains generalizing frame wanted with
  | nil =>
    cases h
    exact ⟨trivial, .nil⟩
  | cons c rest ih =>
    obtain ⟨slot, steps⟩ := c
    cases h with
    | @cons _ k _ ks head tail =>
      obtain ⟨own, found, typed⟩ := head
      obtain ⟨here, last⟩ := chain_typed typed found
      have others := ih (ChainsTyped.weaken tail
        ((Program.chain frame.length slot steps).1.map (·.kind)))
      rw [List.length_append, List.length_map] at others
      obtain ⟨after, feeds⟩ := others
      simp only [Program.layout, List.map_append]
      refine ⟨bindingsTyped_append.2 ⟨here, after⟩, .cons ⟨k, ?_, .refl k⟩ ?_⟩
      · have inside := (List.getElem?_eq_some_iff.1 last).1
        rw [← List.append_assoc, List.getElem?_append_left inside, last]
      · rwa [← List.append_assoc]

/-- Bindings of constants that belong to their kinds. -/
theorem constants_typed (frame : List Kind) {kinds : List Kind} {bound : List Value}
    (h : List.Forall₂ (fun k v => v.conforms k = true ∧ v.MadeOf F K) kinds bound) :
    BindingsTyped F K frame ((kinds.zip bound).map fun (kind, v) => ⟨kind, .const v⟩) ∧
      ((kinds.zip bound).map fun (kind, v) => (⟨kind, .const v⟩ : Binding)).map (·.kind) =
        kinds := by
  induction h generalizing frame with
  | nil => exact ⟨trivial, rfl⟩
  | @cons k v _ _ here _ ih =>
    obtain ⟨typed, kinds⟩ := ih (frame ++ [k])
    exact ⟨⟨.const here.2 here.1, typed⟩, congrArg (k :: ·) kinds⟩

/-- A conversion that is left out leads from a kind to itself. -/
theorem conversion_typed {source target : Kind} (hs : source.Over F.Has) (ht : target.Over F.Has) :
    ChainTyped F K source (Program.conversion source target) target := by
  unfold Program.conversion
  split
  · next same =>
    rw [(Kind.beq_iff hs ht).1 same]
    exact .nil
  · exact .cons (fun _ _ found => ⟨.convert found hs ht, rfl⟩) .nil

/-- The slot of a result that is kept holds it. -/
theorem result_typed {frame : List Kind} {ret : Kind} {slot : Slot}
    (h : frame[slot]? = some ret) :
    match Program.resultSlot ret slot with
    | none => ret = .void
    | some slot => frame[slot]? = some ret := by
  unfold Program.resultSlot
  cases void : ret.isVoid with
  | true => simpa using Kind.isVoid_iff.1 void
  | false => simpa using h

/-- A program that passes the result of a call through a chain has the result of the chain. -/
theorem chained_typed {s : Signature} {before : List Binding} {target : Handle} {args : List Slot}
    {steps : List (Slot → Binding)} (known : K (.handle target))
    (typed : BindingsTyped F K s.params before)
    (feeds : Feeds F.Has (s.params ++ before.map (·.kind)) args target.signature.params)
    (chain : ChainTyped F K target.signature.ret steps s.ret) :
    Program.Typed F K s ⟨s.arity, before ++ ⟨target.signature.ret, .call target args⟩ ::
        (Program.chain (s.arity + before.length + 1) (s.arity + before.length) steps).1,
      Program.resultSlot s.ret
        (Program.chain (s.arity + before.length + 1) (s.arity + before.length) steps).2⟩ := by
  have called := List.getElem?_concat_length (l := s.params ++ before.map (·.kind))
    (a := target.signature.ret)
  obtain ⟨after, result⟩ := chain_typed chain called
  have length : (s.params ++ before.map (·.kind) ++ [target.signature.ret]).length =
      s.arity + before.length + 1 := by simp [Signature.arity]; omega
  have slot : (s.params ++ before.map (·.kind)).length = s.arity + before.length := by
    simp [Signature.arity]
  rw [length, slot] at after result
  constructor
  · exact bindingsTyped_append.2 ⟨typed, .call known feeds, after⟩
  · apply result_typed
    simpa using result

/-- A program that ends in a call has the result of the call. -/
theorem calling_typed {s : Signature} {arity : Nat} {before : List Binding} {target : Handle}
    {args : List Slot} (harity : arity = s.params.length) (known : K (.handle target))
    (ret : s.ret = target.signature.ret) (typed : BindingsTyped F K s.params before)
    (feeds : Feeds F.Has (s.params ++ before.map (·.kind)) args target.signature.params) :
    (Program.calling arity before target args).Typed F K s := by
  subst harity
  constructor
  · exact bindingsTyped_append.2 ⟨typed, .call known feeds, trivial⟩
  · simp only [Program.calling, ← ret]
    apply result_typed
    simp

/-- A program of one step has the result of the step. -/
theorem single_typed {s : Signature} (step : List Slot → Step)
    (h : (step (Program.slots 0 s.arity)).Typed F K s.params s.ret) :
    (Program.single s step).Typed F K s := by
  constructor
  · exact ⟨h, trivial⟩
  · apply result_typed
    simp [Program.single, Signature.arity]

/-- All parameters of a signature feed themselves. -/
theorem feeds_all (has : ClassDef → Prop) (s : Signature) :
    Feeds has s.params (Program.slots 0 s.arity) s.params := by
  have h : Feeds has s.params _ _ :=
    Feeds.slots s.params (Nat.zero_le s.arity) (Nat.le_refl _)
  simpa [Signature.arity] using h

end TypedHandles
