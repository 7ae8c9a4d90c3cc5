import TypedHandles.Proofs.Interning
import TypedHandles.Proofs.SignatureEdits

/-!
The signatures that users come by are the well-formed ones, although nothing checks a signature
that only gets another result or is erased (`Signature.obtained_iff`). Their edits obey the laws of
`Signature.EditLaws`: an edit can be undone, and edits of ranges one behind the other commute
(`signature_edits`).
-/
namespace TypedHandles
namespace Signature

variable {s t : Signature}

/-! What users come by. -/

/-- The signatures that users come by. They make them, for given kinds or for the arguments of a
call, they edit those that they have, and they ask pools for them. A pool may hold anything. -/
inductive Obtained : Signature → Prop
  | make {ret : Kind} {params : List Kind} {s : Signature} :
      make ret params = .ok s → Obtained s
  | ofValues {ret : Kind} {args : List Value} {s : Signature} :
      ofValues ret args = .ok s → Obtained s
  | changeReturn {s : Signature} (ret : Kind) : Obtained s → Obtained (s.changeReturn ret)
  | changeParam {s t : Signature} {index : Nat} {kind : Kind} :
      Obtained s → s.changeParam index kind = .ok t → Obtained t
  | dropParams {s t : Signature} {start stop : Nat} :
      Obtained s → s.dropParams start stop = .ok t → Obtained t
  | insertParams {s t : Signature} {pos : Nat} {kinds : List Kind} :
      Obtained s → s.insertParams pos kinds = .ok t → Obtained t
  | appendParams {s t : Signature} {kinds : List Kind} :
      Obtained s → s.appendParams kinds = .ok t → Obtained t
  | replaceParams {s t : Signature} {start stop : Nat} {kinds : List Kind} :
      Obtained s → s.replaceParams start stop kinds = .ok t → Obtained t
  | erase {s : Signature} : Obtained s → Obtained s.erase
  | intern {p q : SignaturePool} {w c : SharedSignature} :
      Obtained w.signature → p.intern w = (c, q) → Obtained c.signature
  | makeInterned {p q : SignaturePool} {fresh : Nat} {ret : Kind} {params : List Kind}
      {c : SharedSignature} : p.make fresh ret params = .ok (c, q) → Obtained c.signature

theorem wellFormed_of_make {ret : Kind} {params : List Kind} (made : make ret params = .ok s) :
    s.WellFormed :=
  (make_eq_ok_iff.1 made).2

theorem wellFormed_of_replaceParams {start stop : Nat} {kinds : List Kind}
    (replaced : s.replaceParams start stop kinds = .ok t) : t.WellFormed :=
  (replaceParams_eq_ok_iff.1 replaced).2.2

theorem wellFormed_of_changeParam {index : Nat} {kind : Kind}
    (changed : s.changeParam index kind = .ok t) : t.WellFormed := by
  unfold Signature.changeParam at changed
  split at changed
  · exact wellFormed_of_replaceParams changed
  · cases changed

theorem WellFormed.changeReturn (wf : s.WellFormed) (ret : Kind) :
    (s.changeReturn ret).WellFormed :=
  ⟨wf.arity_le, wf.no_void⟩

/-- Nothing is erased to `void`. -/
theorem WellFormed.erase (wf : s.WellFormed) : s.erase.WellFormed := by
  have arity : s.erase.params.length = s.params.length := List.length_map _
  refine ⟨Nat.le_trans (Nat.le_of_eq arity) wf.arity_le, fun k mem => ?_⟩
  obtain ⟨own, here, rfl⟩ := List.mem_map.1 mem
  cases own with
  | void => exact absurd rfl (wf.no_void _ here)
  | prim | ref => exact nofun

/-- What equals a well-formed signature is well formed, whatever its classes declare. -/
theorem WellFormed.congr (wf : s.WellFormed) (same : (s == t) = true) : t.WellFormed :=
  ⟨Nat.le_trans (Nat.le_of_eq (arity_congr same).symm) wf.arity_le,
    no_void_of_beq (beq_iff_parts.1 same).2 wf.no_void⟩

/-- A pool gives what was asked for, or what equals it. -/
theorem WellFormed.intern {p q : SignaturePool} {w c : SharedSignature}
    (wf : w.signature.WellFormed) (interned : p.intern w = (c, q)) : c.signature.WellFormed := by
  unfold SignaturePool.intern at interned
  split at interned
  · next canonical found =>
    cases interned
    have same : (c.signature == w.signature) = true :=
      List.find?_some (p := fun i : SharedSignature => i.signature == w.signature) found
    exact wf.congr (beq_symm same)
  · cases interned
    exact wf

theorem wellFormed_of_makeInterned {p q : SignaturePool} {fresh : Nat} {ret : Kind}
    {params : List Kind} {c : SharedSignature} (made : p.make fresh ret params = .ok (c, q)) :
    c.signature.WellFormed := by
  unfold SignaturePool.make at made
  cases given : make ret params with
  | error failure =>
    rw [given] at made
    cases made
  | ok s =>
    rw [given] at made
    exact (wellFormed_of_make given).intern (Except.ok.inj made)

/-- Whatever users do, they come by well-formed signatures only. -/
theorem Obtained.wellFormed (obtained : s.Obtained) : s.WellFormed := by
  -- What is checked at the end is well formed in any case. Another result, the erasure and the
  -- instance of a pool are not, and they are as well formed as what they come from.
  induction obtained with
  | make made => exact wellFormed_of_make made
  | ofValues made => exact wellFormed_of_make made
  | changeReturn ret _ ih => exact ih.changeReturn ret
  | changeParam _ changed => exact wellFormed_of_changeParam changed
  | dropParams _ dropped => exact wellFormed_of_replaceParams dropped
  | insertParams _ inserted => exact wellFormed_of_replaceParams inserted
  | appendParams _ appended => exact wellFormed_of_replaceParams appended
  | replaceParams _ replaced => exact wellFormed_of_replaceParams replaced
  | erase _ ih => exact ih.erase
  | intern _ interned ih => exact ih.intern interned
  | makeInterned made => exact wellFormed_of_makeInterned made

theorem obtained_iff : s.Obtained ↔ s.WellFormed :=
  ⟨Obtained.wellFormed, fun wf => .make wf.make_eq⟩

/-! The algebra of edits. -/

/-- Parameters that were inserted can be dropped again. -/
theorem drop_inserted {pos : Nat} {kinds : List Kind} (wf : s.WellFormed)
    (inserted : s.insertParams pos kinds = .ok t) :
    t.dropParams pos (pos + kinds.length) = .ok s := by
  have nothing : s.paramsBetween pos pos = [] := by rw [paramsBetween, Nat.sub_self, List.take_zero]
  have undone := replaceParams_undone wf inserted
  rw [nothing] at undone
  exact undone

/-- Parameters that were dropped can be inserted again. -/
theorem insert_dropped {start stop : Nat} (wf : s.WellFormed)
    (dropped : s.dropParams start stop = .ok t) :
    t.insertParams start (s.paramsBetween start stop) = .ok s :=
  replaceParams_undone wf dropped

/-- The result and the parameters change independently. -/
theorem replaceParams_changeReturn {start stop : Nat} {kinds : List Kind} (ret : Kind)
    (replaced : s.replaceParams start stop kinds = .ok t) :
    (s.changeReturn ret).replaceParams start stop kinds = .ok (t.changeReturn ret) := by
  obtain ⟨within, rfl, wf⟩ := replaceParams_eq_ok_iff.1 replaced
  exact replaceParams_eq_ok_iff.2 ⟨within, rfl, wf.changeReturn ret⟩

/-- The laws of editing a signature. -/
structure EditLaws (s : Signature) : Prop where
  changeReturn : ∀ ret, s.changeReturn ret = ⟨ret, s.params⟩
  erase : s.erase.ret = s.ret.erase ∧ ∀ i : Nat, s.erase.params[i]? = s.params[i]?.map Kind.erase
  replaceParams : ∀ start stop kinds, s.Replaces start stop kinds
  dropParams : ∀ start stop, s.dropParams start stop = s.replaceParams start stop []
  insertParams : ∀ pos kinds, s.insertParams pos kinds = s.replaceParams pos pos kinds
  appendParams : ∀ kinds, s.appendParams kinds = s.replaceParams s.arity s.arity kinds
  changeParam : ∀ index kind, index < maxPosition →
    s.changeParam index kind = s.replaceParams index (index + 1) [kind]
  /-- There is no position after the greatest one, which is out of range all the same. -/
  changeParam_greatest : ∀ index kind, maxPosition ≤ index →
    s.changeParam index kind = .error (.illegalArgument (.parameterIndex index s))
  drop_inserted : ∀ pos kinds t, s.insertParams pos kinds = .ok t →
    t.dropParams pos (pos + kinds.length) = .ok s
  insert_dropped : ∀ start stop, s.Spans start stop → ∃ t, s.dropParams start stop = .ok t ∧
    t.insertParams start (s.paramsBetween start stop) = .ok s
  /-- If both edits are possible by themselves, either order has the same outcome. -/
  commute : ∀ a b c d ks ls t u, b ≤ c → s.replaceParams a b ks = .ok t →
    s.replaceParams c d ls = .ok u →
      t.replaceParams (c - (b - a) + ks.length) (d - (b - a) + ks.length) ls =
        u.replaceParams a b ks
  commute_changeReturn : ∀ start stop kinds ret t, s.replaceParams start stop kinds = .ok t →
    (s.changeReturn ret).replaceParams start stop kinds = .ok (t.changeReturn ret)

theorem WellFormed.editLaws (wf : s.WellFormed) : s.EditLaws where
  changeReturn _ := rfl
  erase := ⟨rfl, fun _ => List.getElem?_map⟩
  replaceParams := s.replaces
  dropParams _ _ := rfl
  insertParams _ _ := rfl
  appendParams _ := rfl
  changeParam _ _ inside := if_pos inside
  changeParam_greatest _ _ outside := if_neg (Nat.not_lt.2 outside)
  drop_inserted _ _ _ inserted := Signature.drop_inserted wf inserted
  insert_dropped _ _ within :=
    have dropped := wf.dropParams within.1 within.2
    ⟨_, dropped, Signature.insert_dropped wf dropped⟩
  commute _ _ _ _ _ _ _ _ order first last := replaceParams_comm order first last
  commute_changeReturn _ _ _ ret _ replaced := replaceParams_changeReturn ret replaced

end Signature

/-- The signatures that users come by are exactly those of at most 254 parameters, none of them
`void`. For each of them, replacing parameters is answered by its range, by the number of parameters
and by the first `void` one, in this order; the other edits are cases of it; inserting and dropping
undo each other; and edits of disjoint ranges commute. -/
theorem signature_edits :
    (∀ s : Signature, s.Obtained ↔ s.arity ≤ 254 ∧ ∀ k ∈ s.params, k ≠ .void) ∧
    ∀ s : Signature, s.Obtained → s.EditLaws :=
  ⟨fun _ => Signature.obtained_iff.trans ⟨fun wf => ⟨wf.arity_le, wf.no_void⟩, fun h => ⟨h.1, h.2⟩⟩,
    fun _ obtained => obtained.wellFormed.editLaws⟩

/-- Something is inserted into a signature that went through a pool, and something behind it is
dropped. A signature of 254 parameters takes no more, and that is what is reported of a `void`
one. -/
theorem signature_edits_atLimit :
    ∃ s t u full : Signature, s.Obtained ∧ s.insertParams 1 [.bool] = .ok t ∧
      t.dropParams 1 2 = .ok s ∧ s.dropParams 2 3 = .ok u ∧ u.insertParams 2 [.object] = .ok s ∧
      t.dropParams 3 4 = u.insertParams 1 [.bool] ∧ full.Obtained ∧
      full.appendParams [.void] = .error (.tooManyParameters 255 254) := by
  have made : Signature.make .int [.int, .bool, .ref .string] = .ok _ := rfl
  have pooled : Signature.Obtained ⟨.void, [.int, .bool, .object]⟩ :=
    .intern (p := .hashedBy fun _ => 0) (w := ⟨0, _⟩)
      ((Signature.Obtained.make made).changeReturn .void).erase rfl
  have laws := signature_edits.2 _ pooled
  obtain ⟨u, dropped, inserted⟩ := laws.insert_dropped 2 3 ⟨by decide, by decide⟩
  let full : Signature := ⟨.int, List.replicate 254 .int⟩
  have arity : full.arity = 254 := List.length_replicate
  have limit : full.Obtained := (signature_edits.1 full).2 ⟨Nat.le_of_eq arity, fun k mem => by
    rw [List.eq_of_mem_replicate mem]
    exact nofun⟩
  have fullLaws := signature_edits.2 full limit
  refine ⟨_, ⟨.void, [.int, .bool, .bool, .object]⟩, u, full, pooled, rfl,
    laws.drop_inserted 1 [.bool] _ rfl, dropped, inserted,
    laws.commute 1 1 2 3 [.bool] [] _ u (by decide) rfl dropped, limit, ?_⟩
  rw [fullLaws.appendParams, arity]
  refine ((fullLaws.replaceParams 254 254 [.void]).tooMany 255 254).2 ?_
  rw [arity]
  exact ⟨⟨Nat.le_refl _, Nat.le_of_eq arity.symm⟩, by decide, rfl, rfl⟩

end TypedHandles
