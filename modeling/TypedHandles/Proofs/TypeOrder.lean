import TypedHandles.Proofs.Conversion
import TypedHandles.Signature.Adaptation

/-!
Over a family of classes the reference types are partially ordered, with `Object` on top, and what
lies above one type is a chain.

A type has a height, the number of steps from it up to `Object` (`RefType.height`), which falls
along every strict step of the order. That alone forbids a circle (`RefType.isSubtypeOf_antisymm`).
The order carries over to the kinds and, against the parameters and along the result, to the
signatures that may be read strictly at one another.
-/
namespace TypedHandles

variable {F : ClassFamily}

namespace RefType

/-- How far a type lies below `Object`. An array follows its element, a class its superclass. -/
def height : RefType → Nat
  | .object => 0
  | .boxed _ => 2
  | .array (.ref element) => element.height + 1
  | .cls ⟨_, some parent, _, _, _⟩ => parent.height + 1
  | _ => 1
termination_by structural t => t

theorem height_pos {a : RefType} (low : a ≠ .object) : 0 < a.height := by
  unfold height
  split <;> simp_all

theorem height_of_superclass {c : ClassDef} {parent : RefType} (h : c.superclass = some parent) :
    (cls c).height = parent.height + 1 := by
  obtain ⟨name, superclass, isFinal, fields, methods⟩ := c
  cases h
  rfl

/-- A type that lies below another one lies strictly lower. -/
theorem height_lt_of_isSubtypeOf {a b : RefType} (ha : a.Over F.Has) (hb : b.Over F.Has)
    (below : a.isSubtypeOf b = true) (differ : a ≠ b) : b.height < a.height := by
  induction a using below_induction generalizing b with
  | step a element parent =>
    rcases (isSubtypeOf_iff ha hb).1 below with
      rfl | rfl | ⟨p, rfl, rfl, -⟩ | ⟨e, w, rfl, rfl, inner⟩ | ⟨c, q, rfl, above, next⟩
    · exact absurd rfl differ
    · exact height_pos differ
    · exact Nat.lt_succ_self 1
    · have apart : e ≠ w := fun same => differ (by rw [same])
      exact Nat.succ_lt_succ (element e rfl (by simpa using ha) (by simpa using hb) inner apart)
    · rw [height_of_superclass above]
      by_cases arrived : q = b
      · rw [arrived]
        exact Nat.lt_succ_self _
      · exact Nat.lt_succ_of_lt
          (parent c q rfl above (over_of_superclass ha above) hb next arrived)

theorem isSubtypeOf_antisymm {a b : RefType} (ha : a.Over F.Has) (hb : b.Over F.Has)
    (hab : a.isSubtypeOf b = true) (hba : b.isSubtypeOf a = true) : a = b := by
  by_contra differ
  exact Nat.lt_asymm (height_lt_of_isSubtypeOf ha hb hab differ)
    (height_lt_of_isSubtypeOf hb ha hba (Ne.symm differ))

end RefType

namespace Kind

theorem isViewableAs_strict_trans {k l m : Kind} (hk : k.Over F.Has) (hl : l.Over F.Has)
    (hm : m.Over F.Has) (hkl : k.isViewableAs l true = true) (hlm : l.isViewableAs m true = true) :
    k.isViewableAs m true = true := by
  rcases isViewableAs_strict_iff.1 hkl with same | ⟨s, t, rfl, rfl, below⟩
  · rw [(beq_iff hk hl).1 same]
    exact hlm
  · rcases isViewableAs_strict_iff.1 hlm with same | ⟨t', u, h, rfl, above⟩
    · rw [← (beq_iff hl hm).1 same]
      exact hkl
    · cases h
      exact isViewableAs_strict_iff.2 (.inr ⟨s, u, rfl, rfl,
        RefType.isSubtypeOf_trans (over_ref.1 hk) (over_ref.1 hl) (over_ref.1 hm) below above⟩)

end Kind

namespace Signature

/-- Whether every class that a signature names is one of the given ones. -/
structure Over (has : ClassDef → Prop) (s : Signature) : Prop where
  ret : s.ret.Over has
  params : ∀ k ∈ s.params, k.Over has

theorem isViewableAs_iff {s t : Signature} {strict : Bool} :
    s.isViewableAs t strict = true ↔
      List.Forall₂ (fun own wanted => wanted.isViewableAs own strict = true) s.params t.params ∧
        s.ret.isViewableAs t.ret strict = true := by
  simp only [isViewableAs, arity, Bool.and_eq_true, beq_iff_eq, List.all_eq_true,
    List.forall₂_iff_zip, Prod.forall]

theorem isViewableAs_refl (s : Signature) (strict : Bool) : s.isViewableAs s strict = true :=
  isViewableAs_iff.2
    ⟨List.forall₂_same.2 fun k _ => k.isViewableAs_refl strict, s.ret.isViewableAs_refl strict⟩

theorem isViewableAs_strict_trans {s t u : Signature} (hs : s.Over F.Has) (ht : t.Over F.Has)
    (hu : u.Over F.Has) (hst : s.isViewableAs t true = true) (htu : t.isViewableAs u true = true) :
    s.isViewableAs u true = true := by
  rw [isViewableAs_iff] at hst htu ⊢
  refine ⟨List.forall₂_iff_get.2 ⟨hst.1.length_eq.trans htu.1.length_eq, fun i first last => ?_⟩,
    Kind.isViewableAs_strict_trans hs.ret ht.ret hu.ret hst.2 htu.2⟩
  -- The parameters are read in the other direction: from the last signature to the first one.
  have middle : i < t.params.length := htu.1.length_eq ▸ last
  exact Kind.isViewableAs_strict_trans (hu.params _ (List.get_mem ..))
    (ht.params _ (List.get_mem ..)) (hs.params _ (List.get_mem ..))
    (htu.1.get middle last) (hst.1.get first middle)

end Signature

/-- What holds of three reference types over a family of classes. -/
structure RefType.PartiallyOrdered (F : ClassFamily) (a b c : RefType) : Prop where
  refl : a.isSubtypeOf a = true
  trans : a.isSubtypeOf b = true → b.isSubtypeOf c = true → a.isSubtypeOf c = true
  antisymm : a.isSubtypeOf b = true → b.isSubtypeOf a = true → a = b ∧ (a == b) = true
  top : a.isSubtypeOf .object = true
  /-- What lies above one type is a chain. -/
  chain : a.isSubtypeOf b = true → a.isSubtypeOf c = true → b.isRelatedTo c = true
  /-- A value that is an instance of two unrelated types is `null`. -/
  instances : ∀ v : Value, v.Over F.Has → v.conforms (.ref b) = true → v.conforms (.ref c) = true →
    b.isRelatedTo c = false → v = .null

/-- What holds of three signatures over a family of classes. -/
structure Signature.Preordered (s t u : Signature) : Prop where
  refl : s.isViewableAs s true = true
  trans : s.isViewableAs t true = true → t.isViewableAs u true = true → s.isViewableAs u true = true

/-- The reference types over a family of classes are a partial order in which what lies above one
type is a chain, and the signatures over it are preordered by strict views. -/
theorem types_partiallyOrdered {a b c : RefType} (ha : a.Over F.Has) (hb : b.Over F.Has)
    (hc : c.Over F.Has) {s t u : Signature} (hs : s.Over F.Has) (ht : t.Over F.Has)
    (hu : u.Over F.Has) :
    RefType.PartiallyOrdered F a b c ∧ Signature.Preordered s t u where
  left :=
    { refl := a.isSubtypeOf_refl
      trans := RefType.isSubtypeOf_trans ha hb hc
      antisymm := fun hab hba =>
        have same := RefType.isSubtypeOf_antisymm ha hb hab hba
        ⟨same, (RefType.beq_iff ha hb).2 same⟩
      top := a.isSubtypeOf_object
      chain := RefType.isRelatedTo_of_isSubtypeOf ha hb hc
      instances := fun v hv first second unrelated => by
        by_contra nonnull
        have related := Value.isRelatedTo_of_conforms hv hb hc nonnull first second
        rw [unrelated] at related
        cases related }
  right := ⟨s.isViewableAs_refl true, Signature.isViewableAs_strict_trans hs ht hu⟩

/-- Arrays of arrays of throwables, and functions that return one and take less and less. -/
theorem types_partiallyOrdered_throwables :
    let nested (t : RefType) : RefType := .array (.ref (.array (.ref t)))
    let taking (param result : RefType) : Signature := ⟨.ref result, [.ref param]⟩
    let absent : RefType := .cls .nullPointer
    let raised : RefType := .cls .runtimeException
    RefType.PartiallyOrdered .builtin (nested absent) (nested raised) (.array .object) ∧
    (nested absent).isSubtypeOf (nested raised) = true ∧
    (nested absent).isSubtypeOf (.array .object) = true ∧
    Signature.Preordered (taking .object absent) (taking raised raised)
      (taking absent .throwable) ∧
    (taking .object absent).isViewableAs (taking raised raised) true = true ∧
    (taking raised raised).isViewableAs (taking absent .throwable) true = true := by
  intro nested taking absent raised
  have absentOver : absent.Over ClassFamily.builtin.Has := by
    simp [absent, ClassFamily.builtin, ClassDef.builtins]
  have raisedOver : raised.Over ClassFamily.builtin.Has := by
    simp [raised, ClassFamily.builtin, ClassDef.builtins]
  have nestedOver {t : RefType} (ht : t.Over ClassFamily.builtin.Has) :
      (nested t).Over ClassFamily.builtin.Has := by
    simpa [nested] using ht
  have takingOver {a b : RefType} (ha : a.Over ClassFamily.builtin.Has)
      (hb : b.Over ClassFamily.builtin.Has) : (taking a b).Over ClassFamily.builtin.Has :=
    ⟨by simpa [taking] using hb, by simpa [taking] using ha⟩
  obtain ⟨types, signatures⟩ := types_partiallyOrdered (nestedOver absentOver)
    (nestedOver raisedOver) (c := .array .object) (by simp [RefType.Over])
    (takingOver (a := .object) (by simp [RefType.Over]) absentOver)
    (takingOver raisedOver raisedOver)
    (takingOver absentOver (b := .throwable) (by simp [RefType.Over]))
  exact ⟨types, by decide, by decide, signatures, by decide, by decide⟩

end TypedHandles
