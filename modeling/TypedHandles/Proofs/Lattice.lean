import Mathlib.Data.List.Nodup
import TypedHandles.Kind.Builtin
import TypedHandles.Kind.Conversion

/-!
The order of the reference types over a family of classes in which a name stands for one definition.

There `==` is equality (`Kind.beq_iff`), the order is transitive (`RefType.isSubtypeOf_trans`), and
two types above one type are related (`RefType.isRelatedTo_of_isSubtypeOf`). Proofs go by
`RefType.below_induction`: what lies below a type is reached through the elements of arrays and the
superclasses of classes.
-/
namespace TypedHandles

mutual

/-- Whether every class that a kind names is one of the given ones. -/
def Kind.Over (has : ClassDef → Prop) : Kind → Prop
  | .void | .prim _ => True
  | .ref r => r.Over has

/-- Whether every class that a reference type names is one of the given ones. -/
def RefType.Over (has : ClassDef → Prop) : RefType → Prop
  | .array element => element.Over has
  | .cls c => has c
  | _ => True

end

@[simp] theorem Kind.over_void {has : ClassDef → Prop} : Kind.void.Over has := by
  simp [Kind.Over]

@[simp] theorem Kind.over_prim {has : ClassDef → Prop} {p : Prim} : (Kind.prim p).Over has := by
  simp [Kind.Over]

@[simp] theorem Kind.over_ref {has : ClassDef → Prop} {r : RefType} :
    (Kind.ref r).Over has ↔ r.Over has := by
  simp [Kind.Over]

@[simp] theorem RefType.over_array {has : ClassDef → Prop} {k : Kind} :
    (RefType.array k).Over has ↔ k.Over has := by
  simp [RefType.Over]

@[simp] theorem RefType.over_cls {has : ClassDef → Prop} {c : ClassDef} :
    (RefType.cls c).Over has ↔ has c := by
  simp [RefType.Over]

mutual

theorem Kind.same_comm (k l : Kind) : k.same l = l.same k := by
  match k, l with
  | .prim p, .prim q => exact Bool.beq_comm
  | .ref r, .ref s => exact RefType.same_comm r s
  | .void, .void | .void, .prim _ | .void, .ref _ | .prim _, .void | .prim _, .ref _
  | .ref _, .void | .ref _, .prim _ => rfl

theorem RefType.same_comm (r s : RefType) : r.same s = s.same r := by
  cases r <;> cases s <;> try rfl
  case boxed p q => exact Bool.beq_comm
  case array a b => exact Kind.same_comm a b
  case cls c d => exact Bool.beq_comm

end

/-- Class definitions in which a name stands for one definition, each with the classes that its
superclass names. -/
structure ClassFamily where
  Has : ClassDef → Prop
  eq_of_name_eq : ∀ {c d : ClassDef}, Has c → Has d → c.name = d.name → c = d
  superclass_over : ∀ {c : ClassDef} {r : RefType}, Has c → c.superclass = some r → r.Over Has

/-- The classes of the library alone. -/
def ClassFamily.builtin : ClassFamily where
  Has c := c ∈ ClassDef.builtins
  eq_of_name_eq hc hd same := List.inj_on_of_nodup_map
    (by decide : (ClassDef.builtins.map ClassDef.name).Nodup) hc hd same
  superclass_over {c r} hc above := by
    have every : ∀ c ∈ ClassDef.builtins,
        c.superclass = some .throwable ∨ c.superclass = some (.cls .runtimeException) := by
      simp [ClassDef.builtins, ClassDef.throwableClass,
        ClassDef.runtimeException, ClassDef.nullPointer, ClassDef.arithmetic,
        ClassDef.indexOutOfBounds, ClassDef.invocationFailure]
    rcases every c hc with known | known <;> cases known.symm.trans above
    · simp [RefType.Over]
    · simp [RefType.Over, ClassDef.builtins]

variable {F : ClassFamily}

mutual

theorem Kind.eq_of_same {k l : Kind} (hk : k.Over F.Has) (hl : l.Over F.Has)
    (h : k.same l = true) : k = l := by
  match k, l with
  | .void, .void => rfl
  | .prim p, .prim q =>
    simp only [Kind.same, beq_iff_eq] at h
    rw [h]
  | .ref r, .ref s =>
    rw [Kind.over_ref] at hk hl
    rw [Kind.same] at h
    rw [RefType.eq_of_same hk hl h]
  | .void, .prim _ | .void, .ref _ | .prim _, .void | .prim _, .ref _ | .ref _, .void
  | .ref _, .prim _ => cases h

theorem RefType.eq_of_same {r s : RefType} (hr : r.Over F.Has) (hs : s.Over F.Has)
    (h : r.same s = true) : r = s := by
  cases r <;> cases s <;> simp only [RefType.same, beq_iff_eq, Bool.false_eq_true] at h ⊢
  case boxed => rw [h]
  case array a b =>
    rw [RefType.over_array] at hr hs
    rw [Kind.eq_of_same hr hs h]
  case cls =>
    rw [RefType.over_cls] at hr hs
    rw [F.eq_of_name_eq hr hs h]

end

theorem Kind.beq_iff {k l : Kind} (hk : k.Over F.Has) (hl : l.Over F.Has) :
    (k == l) = true ↔ k = l :=
  ⟨Kind.eq_of_same hk hl, fun h => h ▸ BEq.rfl⟩

theorem RefType.beq_iff {r s : RefType} (hr : r.Over F.Has) (hs : s.Over F.Has) :
    (r == s) = true ↔ r = s :=
  ⟨RefType.eq_of_same hr hs, fun h => h ▸ BEq.rfl⟩

@[simp] theorem Kind.ref_beq_prim {r : RefType} {p : Prim} :
    (Kind.ref r == Kind.prim p) = false := rfl

namespace RefType

theorem beq_object_iff {r : RefType} : (r == object) = true ↔ r = object := by
  cases r <;> simp [BEq.beq, same]

theorem beq_number_iff {r : RefType} : (r == number) = true ↔ r = number := by
  cases r <;> simp [BEq.beq, same]

theorem isSubtypeOf_of_beq {a b : RefType} (same : (a == b) = true) : a.isSubtypeOf b = true := by
  unfold isSubtypeOf
  rw [same, Bool.true_or, Bool.true_or]

/-- The ways in which one type lies below another. -/
theorem isSubtypeOf_iff {a b : RefType} (ha : a.Over F.Has) (hb : b.Over F.Has) :
    a.isSubtypeOf b = true ↔ a = b ∨ b = .object ∨
      (∃ p : Prim, a = .boxed p ∧ b = .number ∧ p.isNumeric = true) ∨
      (∃ e w, a = .array (.ref e) ∧ b = .array (.ref w) ∧ e.isSubtypeOf w = true) ∨
      (∃ c parent, a = .cls c ∧ c.superclass = some parent ∧ parent.isSubtypeOf b = true) := by
  rw [isSubtypeOf.eq_def a b, Bool.or_eq_true, Bool.or_eq_true, beq_iff ha hb, beq_object_iff,
    or_assoc]
  refine or_congr_right (or_congr_right ?_)
  split
  · next p => simp [beq_number_iff]
  · next e =>
    cases b with
    | array k => cases k <;> simp
    | _ => simp
  · next n parent fin fields methods =>
    constructor
    · intro h
      exact .inr (.inr ⟨_, parent, rfl, rfl, h⟩)
    · rintro (⟨p, h, -⟩ | ⟨e, w, h, -⟩ | ⟨c, q, h, hq, below⟩)
      · cases h
      · cases h
      · cases h
        cases hq
        exact below
  · next hb' ha' hc' =>
    simp only [Bool.false_eq_true, false_iff, not_or]
    refine ⟨?_, ?_, ?_⟩
    · rintro ⟨p, rfl, -⟩
      exact hb' p rfl
    · rintro ⟨e, w, rfl, -⟩
      exact ha' e rfl
    · rintro ⟨⟨n, s, f, fs, ms⟩, q, rfl, hq, -⟩
      exact hc' _ _ _ _ _ (by rw [← hq])

/-- Induction on a type that lies below another one: a smaller type is the element of an array or
the superclass of a class. -/
theorem below_induction {motive : RefType → Prop}
    (step : ∀ a : RefType, (∀ e, a = .array (.ref e) → motive e) →
      (∀ c parent, a = .cls c → c.superclass = some parent → motive parent) → motive a) :
    ∀ a, motive a
  | .array (.ref e) =>
    step _ (fun _ h => by cases h; exact below_induction step e) (fun _ _ h => by cases h)
  | .cls ⟨_, some parent, _, _, _⟩ =>
    step _ (fun _ h => by cases h)
      (fun _ _ h hp => by cases h; cases hp; exact below_induction step parent)
  | .cls ⟨_, none, _, _, _⟩ =>
    step _ (fun _ h => by cases h) (fun _ _ h hp => by cases h; cases hp)
  | .array .void | .array (.prim _) | .object | .number | .string | .throwable | .boxed _ | .handle
  | .signature | .callSite => step _ (fun _ h => by cases h) (fun _ _ h _ => by cases h)

theorem over_of_superclass {c : ClassDef} {parent : RefType} (hc : (cls c).Over F.Has)
    (h : c.superclass = some parent) : parent.Over F.Has :=
  F.superclass_over (over_cls.1 hc) h

/-- Only `Object` lies above `Object`. -/
theorem object_isSubtypeOf_iff {c : RefType} : object.isSubtypeOf c = true ↔ c = object := by
  cases c <;> simp [isSubtypeOf, BEq.beq, same]

/-- Only `Number` and `Object` lie above `Number`. -/
theorem number_isSubtypeOf_iff {c : RefType} :
    number.isSubtypeOf c = true ↔ c = number ∨ c = object := by
  cases c <;> simp [isSubtypeOf, BEq.beq, same]

/-- Above an array of references lie `Object` and the arrays over the supertypes of its element. -/
theorem array_isSubtypeOf_iff {e c : RefType} (he : e.Over F.Has) (hc : c.Over F.Has) :
    (array (.ref e)).isSubtypeOf c = true ↔
      c = object ∨ ∃ w, c = array (.ref w) ∧ e.isSubtypeOf w = true := by
  rw [isSubtypeOf_iff (by simpa using he) hc]
  constructor
  · rintro (rfl | rfl | ⟨p, h, -⟩ | ⟨e', w, h, rfl, below⟩ | ⟨d, q, h, -⟩)
    · exact .inr ⟨e, rfl, isSubtypeOf_refl e⟩
    · exact .inl rfl
    · cases h
    · cases h
      exact .inr ⟨w, rfl, below⟩
    · cases h
  · rintro (rfl | ⟨w, rfl, below⟩)
    · exact .inr (.inl rfl)
    · exact .inr (.inr (.inr (.inl ⟨e, w, rfl, rfl, below⟩)))

theorem isSubtypeOf_trans {a b c : RefType} (ha : a.Over F.Has) (hb : b.Over F.Has)
    (hc : c.Over F.Has) (hab : a.isSubtypeOf b = true) (hbc : b.isSubtypeOf c = true) :
    a.isSubtypeOf c = true := by
  induction a using below_induction generalizing b c with
  | step a element parent =>
    rcases (isSubtypeOf_iff ha hb).1 hab with
      rfl | rfl | ⟨p, rfl, rfl, numeric⟩ | ⟨e, w, rfl, rfl, below⟩ | ⟨d, q, rfl, above, below⟩
    · exact hbc
    · rw [object_isSubtypeOf_iff.1 hbc]
      exact isSubtypeOf_object a
    · rcases number_isSubtypeOf_iff.1 hbc with rfl | rfl
      · exact hab
      · exact isSubtypeOf_object _
    · rcases (array_isSubtypeOf_iff (by simpa using hb) hc).1 hbc with rfl | ⟨v, rfl, given⟩
      · exact isSubtypeOf_object _
      · refine (isSubtypeOf_iff ha hc).2 (.inr (.inr (.inr (.inl ⟨e, v, rfl, rfl, ?_⟩))))
        exact element e rfl (by simpa using ha) (by simpa using hb) (by simpa using hc) below given
    · refine (isSubtypeOf_iff ha hc).2 (.inr (.inr (.inr (.inr ⟨d, q, rfl, above, ?_⟩))))
      exact parent d q rfl above (over_of_superclass ha above) hb hc below hbc

/-- Two types above one type are related. -/
theorem isRelatedTo_of_isSubtypeOf {a b c : RefType} (ha : a.Over F.Has) (hb : b.Over F.Has)
    (hc : c.Over F.Has) (hab : a.isSubtypeOf b = true) (hac : a.isSubtypeOf c = true) :
    b.isRelatedTo c = true := by
  rw [isRelatedTo, Bool.or_eq_true]
  induction a using below_induction generalizing b c with
  | step a element parent =>
    rcases (isSubtypeOf_iff ha hb).1 hab with
      rfl | rfl | ⟨p, rfl, rfl, numeric⟩ | ⟨e, w, rfl, rfl, below⟩ | ⟨d, q, rfl, above, below⟩
    · exact .inl hac
    · exact .inr (isSubtypeOf_object c)
    · rcases (isSubtypeOf_iff ha hc).1 hac with
        rfl | rfl | ⟨p', -, rfl, -⟩ | ⟨e, w, h, -⟩ | ⟨d, q, h, -⟩
      · exact .inr hab
      · exact .inl (isSubtypeOf_object _)
      · exact .inl (isSubtypeOf_refl _)
      · cases h
      · cases h
    · rcases (array_isSubtypeOf_iff (by simpa using ha) hc).1 hac with rfl | ⟨v, rfl, given⟩
      · exact .inl (isSubtypeOf_object _)
      · rcases element e rfl (by simpa using ha) (by simpa using hb) (by simpa using hc) below given
          with h | h
        · exact .inl ((array_isSubtypeOf_iff (by simpa using hb) hc).2 (.inr ⟨v, rfl, h⟩))
        · exact .inr ((array_isSubtypeOf_iff (by simpa using hc) hb).2 (.inr ⟨w, rfl, h⟩))
    · rcases (isSubtypeOf_iff ha hc).1 hac with
        rfl | rfl | ⟨p', h, -⟩ | ⟨e, w, h, -⟩ | ⟨d', q', h, above', below'⟩
      · exact .inr hab
      · exact .inl (isSubtypeOf_object _)
      · cases h
      · cases h
      · cases h
        cases above.symm.trans above'
        exact parent d q rfl above (over_of_superclass ha above) hb hc below below'

/-- A wrapper lies below itself, `Object`, and if it is numeric `Number`. -/
theorem boxed_isSubtypeOf_iff {p : Prim} {t : RefType} :
    (boxed p).isSubtypeOf t = true ↔
      t = boxed p ∨ t = object ∨ (t = number ∧ p.isNumeric = true) := by
  cases t <;> simp [isSubtypeOf, BEq.beq, same]
  exact eq_comm

end RefType
end TypedHandles
