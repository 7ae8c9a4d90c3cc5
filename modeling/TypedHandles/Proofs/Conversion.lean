import TypedHandles.Proofs.Lattice
import TypedHandles.Value.Convert

/-!
Conversions of values against conversions of kinds: what `Kind.isConvertibleTo` decides before any
value is known is what `Value.convert` carries out.

`Value.conforms_of_isViewableAs` is the subsumption that shared programs rest on, and
`Value.conforms_of_convert` says that a conversion that succeeds always reaches its target kind.
-/
namespace TypedHandles

theorem Prim.boxTarget?_eq_some {p q : Prim} {t : RefType} (h : p.boxTarget? t = some q) :
    p.widensTo q = true ∧ (RefType.boxed q).isSubtypeOf t = true := by
  unfold boxTarget? at h
  split at h
  · next below =>
    cases h
    exact ⟨p.widensTo_refl, below⟩
  · split at h
    · split at h
      · next widens =>
        cases h
        exact ⟨widens, RefType.isSubtypeOf_refl _⟩
      · cases h
    · cases h

/-- No number widens to a boolean or to a character. -/
theorem Prim.isNumeric_of_widensTo {p q : Prim} (hp : p.isNumeric = true)
    (h : p.widensTo q = true) : q.isNumeric = true := by
  cases p <;> cases q <;> cases h <;> first | rfl | cases hp

namespace Kind

/-- A strict view leaves a kind as it is or moves a reference up. -/
theorem isViewableAs_strict_iff {k l : Kind} :
    k.isViewableAs l true = true ↔
      (k == l) = true ∨ ∃ s t, k = .ref s ∧ l = .ref t ∧ s.isSubtypeOf t = true := by
  unfold isViewableAs
  rw [Bool.or_eq_true]
  refine or_congr_right ?_
  cases k <;> cases l <;> simp

end Kind

namespace Value

/-- Whether the classes of a value's own type are given ones. -/
def Over (has : ClassDef → Prop) (v : Value) : Prop := ∀ t, v.refType? = some t → t.Over has

theorem conforms_prim_iff {v : Value} {p : Prim} :
    v.conforms (.prim p) = true ↔ v.prim? = some p := by
  simp [conforms]

theorem conforms_ref_iff {v : Value} {t : RefType} :
    v.conforms (.ref t) = true ↔
      v = null ∨ ∃ s, v.refType? = some s ∧ s.isSubtypeOf t = true := by
  cases v <;> simp [conforms, refType?]

/-- A primitive conforms to a reference kind as its own wrapper. -/
theorem conforms_ref_of_prim? {v : Value} {p : Prim} {t : RefType} (h : v.prim? = some p) :
    v.conforms (.ref t) = true ↔ (RefType.boxed p).isSubtypeOf t = true := by
  cases v <;> cases h <;> simp [conforms, refType?]

theorem zero_conforms (k : Kind) : (zero k).conforms k = true := by
  match k with
  | .void => rfl
  | .ref _ => rfl
  | .prim p => cases p <;> rfl

/-- A conversion failed, since a value is not of some type. -/
def CastFails (x : Except Failure Value) : Prop :=
  ∃ found wanted, x = .error (.classCast found wanted)

theorem castFails_castFailure (v : Value) (k : Kind) : CastFails (.error (v.castFailure k)) :=
  ⟨_, _, rfl⟩

theorem widen_self {v : Value} {p : Prim} (hv : v.prim? = some p) : v.widen p = .ok v := by
  simp [widen, hv]

theorem widen_of_widensTo {v : Value} {p q : Prim} (hv : v.prim? = some p)
    (h : p.widensTo q = true) : ∃ w, v.widen q = .ok w ∧ w.prim? = some q := by
  cases v <;> cases hv <;> cases q <;> cases h <;> exact ⟨_, rfl, rfl⟩

theorem widen_of_not_widensTo {v : Value} {p q : Prim} (hv : v.prim? = some p)
    (h : p.widensTo q = false) : v.widen q = .error (v.castFailure (.prim q)) := by
  have different : p ≠ q := by
    rintro rfl
    simp [p.widensTo_refl] at h
  simp [widen, hv, different, h]

theorem prim?_of_widen {v w : Value} {p q : Prim} (hv : v.prim? = some p)
    (h : v.widen q = .ok w) : w.prim? = some q := by
  cases widens : p.widensTo q with
  | true =>
    obtain ⟨w', done, hw⟩ := widen_of_widensTo hv widens
    cases done.symm.trans h
    exact hw
  | false =>
    rw [widen_of_not_widensTo hv widens] at h
    cases h

theorem unbox_of_widensTo {v : Value} {p q : Prim} (hv : v.prim? = some p)
    (h : p.widensTo q = true) : ∃ w, v.unbox q = .ok w ∧ w.prim? = some q := by
  simpa [unbox, hv, h] using widen_of_widensTo hv h

/-- A value unboxes when it is a primitive of a kind that widens to the wanted one. -/
theorem unbox_error {v : Value} {q : Prim} (h : ∀ p, v.prim? = some p → p.widensTo q = false) :
    v.unbox q = .error (v.castFailure (.prim q)) := by
  unfold unbox
  split
  · next p hv => simp [h p hv]
  · rfl

theorem prim?_of_unbox {v w : Value} {q : Prim} (h : v.unbox q = .ok w) : w.prim? = some q := by
  unfold unbox at h
  split at h
  · next p hv =>
    split at h
    · exact prim?_of_widen hv h
    · cases h
  · cases h

theorem widen_eq_ok_or_castFails (v : Value) (q : Prim) :
    (∃ w, v.widen q = .ok w) ∨ CastFails (v.widen q) := by
  cases hv : v.prim? with
  | none => exact .inr ⟨_, _, by simp only [widen, hv]; rfl⟩
  | some p =>
    cases h : p.widensTo q with
    | true =>
      obtain ⟨w, hw, -⟩ := widen_of_widensTo hv h
      exact .inl ⟨w, hw⟩
    | false => exact .inr ⟨_, _, widen_of_not_widensTo hv h⟩

theorem unbox_eq_ok_or_castFails (v : Value) (q : Prim) :
    (∃ w, v.unbox q = .ok w) ∨ CastFails (v.unbox q) := by
  unfold unbox
  split
  · split
    · exact widen_eq_ok_or_castFails v q
    · exact .inr (castFails_castFailure v _)
  · exact .inr (castFails_castFailure v _)

theorem checkCast_of_conforms {v : Value} {t : RefType} (h : v.conforms (.ref t) = true) :
    v.checkCast t = .ok v := by
  rcases conforms_ref_iff.1 h with rfl | ⟨s, hs, below⟩
  · rfl
  · cases v <;> simp_all [checkCast, refType?]

theorem checkCast_of_not_conforms {v : Value} {t : RefType} (h : v.conforms (.ref t) = false) :
    v.checkCast t = .error (v.castFailure (.ref t)) := by
  cases v <;> simp_all [checkCast, conforms, refType?]

/-- A cast passes on the value itself, which conforms then. -/
theorem checkCast_eq_ok_iff {v w : Value} {t : RefType} :
    v.checkCast t = .ok w ↔ w = v ∧ v.conforms (.ref t) = true := by
  cases h : v.conforms (.ref t) with
  | true =>
    rw [checkCast_of_conforms h]
    simp [eq_comm]
  | false =>
    rw [checkCast_of_not_conforms h]
    simp

theorem checkCast_eq_ok_or_castFails (v : Value) (t : RefType) :
    (∃ w, v.checkCast t = .ok w) ∨ CastFails (v.checkCast t) := by
  cases h : v.conforms (.ref t) with
  | true => exact .inl ⟨v, checkCast_of_conforms h⟩
  | false => exact .inr ⟨_, _, checkCast_of_not_conforms h⟩

variable {F : ClassFamily}

/-- Values move up along strict views. -/
theorem conforms_of_isViewableAs {v : Value} {k l : Kind} (hv : v.Over F.Has) (hk : k.Over F.Has)
    (hl : l.Over F.Has) (view : k.isViewableAs l true = true) (h : v.conforms k = true) :
    v.conforms l = true := by
  rcases Kind.isViewableAs_strict_iff.1 view with same | ⟨s, t, rfl, rfl, above⟩
  · rwa [← (Kind.beq_iff hk hl).1 same]
  · rw [Kind.over_ref] at hk hl
    rcases conforms_ref_iff.1 h with rfl | ⟨r, hr, below⟩
    · rfl
    · have lower : r.isSubtypeOf t = true :=
        RefType.isSubtypeOf_trans (hv r hr) hk hl below above
      exact conforms_ref_iff.2 (.inr ⟨r, hr, lower⟩)

/-- A conversion that succeeds reaches its target kind, whether or not the kinds convert. -/
theorem conforms_of_convert {v w : Value} {source target : Kind} (hs : source.Over F.Has)
    (ht : target.Over F.Has) (h : v.conforms source = true)
    (done : v.convert source target = .ok w) : w.conforms target = true := by
  unfold convert at done
  split at done
  · next same =>
    cases done
    rwa [← (Kind.beq_iff hs ht).1 same]
  · split at done
    · cases done
      rfl
    · cases done
      exact zero_conforms _
    · next p q => exact conforms_prim_iff.2 (prim?_of_widen (conforms_prim_iff.1 h) done)
    · next p t =>
      split at done
      · next q boxed =>
        have := prim?_of_widen (conforms_prim_iff.1 h) done
        exact (conforms_ref_of_prim? this).2 (Prim.boxTarget?_eq_some boxed).2
      · cases done
    · next q => exact conforms_prim_iff.2 (prim?_of_unbox done)
    · obtain ⟨rfl, cast⟩ := checkCast_eq_ok_iff.1 done
      exact cast

/-- Whatever is converted to whatever, a conversion that fails reports a failed cast. -/
theorem convert_eq_ok_or_castFails (v : Value) (source target : Kind) :
    (∃ w, v.convert source target = .ok w) ∨ CastFails (v.convert source target) := by
  unfold convert
  split
  · exact .inl ⟨v, rfl⟩
  · split
    · exact .inl ⟨_, rfl⟩
    · exact .inl ⟨_, rfl⟩
    · exact widen_eq_ok_or_castFails v _
    · split
      · exact widen_eq_ok_or_castFails v _
      · exact .inr (castFails_castFailure v _)
    · exact unbox_eq_ok_or_castFails v _
    · exact checkCast_eq_ok_or_castFails v _

theorem convert_self (v : Value) (k : Kind) : v.convert k k = .ok v := by
  simp [convert]

/-- Between different references a conversion is a cast. -/
theorem convert_ref {s t : RefType} (v : Value) (h : (Kind.ref s == Kind.ref t) = false) :
    v.convert (.ref s) (.ref t) = v.checkCast t := by
  simp [convert, h]

/-- A primitive converts to every kind that its own converts to. -/
theorem convert_prim_of_isConvertibleTo {v : Value} {p : Prim} {target : Kind}
    (hv : v.prim? = some p) (h : (Kind.prim p).isConvertibleTo target = true) :
    ∃ w, v.convert (.prim p) target = .ok w := by
  cases same : Kind.prim p == target with
  | true => exact ⟨v, by simp [convert, same]⟩
  | false =>
    cases target with
    | void => exact ⟨void, by simp [convert, same]⟩
    | prim q =>
      have widens : p.widensTo q = true := by simpa [Kind.isConvertibleTo, same] using h
      obtain ⟨w, hw, -⟩ := widen_of_widensTo hv widens
      exact ⟨w, by simpa [convert, same] using hw⟩
    | ref t =>
      have boxes : (p.boxTarget? t).isSome = true := by
        simpa [Kind.isConvertibleTo, same] using h
      obtain ⟨q, hq⟩ := Option.isSome_iff_exists.1 boxes
      obtain ⟨w, hw, -⟩ := widen_of_widensTo hv (Prim.boxTarget?_eq_some hq).1
      exact ⟨w, by simpa [convert, same, hq] using hw⟩

/-- A reference converts to the kinds above its own. -/
theorem convert_of_isSubtypeOf {v : Value} {s t : RefType} (hv : v.Over F.Has)
    (hs : s.Over F.Has) (ht : t.Over F.Has) (below : s.isSubtypeOf t = true)
    (h : v.conforms (.ref s) = true) : v.convert (.ref s) (.ref t) = .ok v := by
  cases same : Kind.ref s == Kind.ref t with
  | true => simp [convert, same]
  | false =>
    have view : (Kind.ref s).isViewableAs (.ref t) true = true := by
      simp [Kind.isViewableAs, below]
    rw [convert_ref v same]
    exact checkCast_of_conforms
      (conforms_of_isViewableAs hv (Kind.over_ref.2 hs) (Kind.over_ref.2 ht) view h)

/-- A boxed value unboxes to the primitives that its wrapper converts to. -/
theorem convert_boxed_of_isConvertibleTo {v : Value} {p q : Prim} (hv : v.prim?.isSome = true)
    (h : v.conforms (.ref (.boxed p)) = true)
    (convertible : (Kind.ref (.boxed p)).isConvertibleTo (.prim q) = true) :
    ∃ w, v.convert (.ref (.boxed p)) (.prim q) = .ok w := by
  obtain ⟨own, hown⟩ := Option.isSome_iff_exists.1 hv
  have same : p = own := by
    simpa [RefType.boxed_isSubtypeOf_iff] using (conforms_ref_of_prim? hown).1 h
  subst same
  have widens : p.widensTo q = true := by
    simpa [Kind.isConvertibleTo, RefType.canUnboxTo] using convertible
  obtain ⟨w, hw, -⟩ := unbox_of_widensTo hown widens
  exact ⟨w, by simpa [convert] using hw⟩

/-- What a boxed value of a type unboxes to is what the type lets on. -/
theorem canUnboxTo_of_prim? {v : Value} {p q : Prim} {s : RefType} (hv : v.prim? = some p)
    (h : v.conforms (.ref s) = true) (widens : p.widensTo q = true) : s.canUnboxTo q = true := by
  rcases RefType.boxed_isSubtypeOf_iff.1 ((conforms_ref_of_prim? hv).1 h) with
    rfl | rfl | ⟨rfl, numeric⟩
  · exact widens
  · rfl
  · exact Prim.isNumeric_of_widensTo numeric widens

/-- No value but `null` is an instance of two types that are not related. -/
theorem isRelatedTo_of_conforms {v : Value} {s t : RefType} (hv : v.Over F.Has)
    (hs : s.Over F.Has) (ht : t.Over F.Has) (nonnull : v ≠ null)
    (first : v.conforms (.ref s) = true) (second : v.conforms (.ref t) = true) :
    s.isRelatedTo t = true := by
  rcases conforms_ref_iff.1 first with rfl | ⟨r, hr, below⟩
  · exact absurd rfl nonnull
  · rcases conforms_ref_iff.1 second with rfl | ⟨r', hr', below'⟩
    · exact absurd rfl nonnull
    · cases hr.symm.trans hr'
      exact RefType.isRelatedTo_of_isSubtypeOf (hv r hr) hs ht below below'

/-- Where the kinds do not convert, no value does, but `null` from reference to reference. -/
theorem convert_of_not_isConvertibleTo {v : Value} {source target : Kind} (hv : v.Over F.Has)
    (hs : source.Over F.Has) (ht : target.Over F.Has) (h : v.conforms source = true)
    (inconvertible : source.isConvertibleTo target = false)
    (notNull : ¬ (v = null ∧ source.refType?.isSome = true ∧ target.refType?.isSome = true)) :
    CastFails (v.convert source target) := by
  unfold Kind.isConvertibleTo at inconvertible
  rw [Bool.or_eq_false_iff] at inconvertible
  obtain ⟨different, inconvertible⟩ := inconvertible
  match source, target with
  | .void, _ | .prim _, .void | .ref _, .void => simp at inconvertible
  | .prim p, .prim q =>
    have := widen_of_not_widensTo (conforms_prim_iff.1 h) inconvertible
    simpa [convert, different, this] using castFails_castFailure v (.prim q)
  | .prim p, .ref t =>
    have unboxed : p.boxTarget? t = none := by simpa using inconvertible
    simpa [convert, different, unboxed] using castFails_castFailure v (.ref t)
  | .ref s, .prim q =>
    have stuck : v.unbox q = .error (v.castFailure (.prim q)) := by
      refine unbox_error fun p hp => ?_
      rw [← Bool.not_eq_true]
      intro widens
      simp [canUnboxTo_of_prim? hp h widens] at inconvertible
    simpa [convert, different, stuck] using castFails_castFailure v (.prim q)
  | .ref s, .ref t =>
    rw [convert_ref v different]
    rw [Kind.over_ref] at hs ht
    have nonnull : v ≠ null := fun null => notNull ⟨null, rfl, rfl⟩
    have outside : v.conforms (.ref t) = false := by
      rw [← Bool.not_eq_true]
      intro inside
      simp [isRelatedTo_of_conforms hv hs ht nonnull h inside] at inconvertible
    rw [checkCast_of_not_conforms outside]
    exact castFails_castFailure v _

/-- The kinds alone settle that a value converts: they are the same, one of them is `void`, the
source is primitive, it lies below the target, or it is the wrapper of a boxed value. -/
def SettledByKinds (source target : Kind) (v : Value) : Prop :=
  source = target ∨ source = .void ∨ target = .void ∨ (∃ p, source = .prim p) ∨
    (∃ s t, source = .ref s ∧ target = .ref t ∧ s.isSubtypeOf t = true) ∨
      (∃ p q, source = .ref (.boxed p) ∧ target = .prim q ∧ v.prim?.isSome = true)

theorem convert_of_settledByKinds {v : Value} {source target : Kind} (hv : v.Over F.Has)
    (hs : source.Over F.Has) (ht : target.Over F.Has) (h : v.conforms source = true)
    (convertible : source.isConvertibleTo target = true)
    (settled : SettledByKinds source target v) : ∃ w, v.convert source target = .ok w := by
  rcases settled with
    rfl | rfl | rfl | ⟨p, rfl⟩ | ⟨s, t, rfl, rfl, below⟩ | ⟨p, q, rfl, rfl, boxed⟩
  · exact ⟨v, convert_self v source⟩
  · cases same : Kind.void == target with
    | true => exact ⟨v, by simp [convert, same]⟩
    | false => cases target <;> exact ⟨_, by simp [convert, same]; rfl⟩
  · cases same : source == Kind.void with
    | true => exact ⟨v, by simp [convert, same]⟩
    | false => exact ⟨void, by simp [convert, same]⟩
  · exact convert_prim_of_isConvertibleTo (conforms_prim_iff.1 h) convertible
  · exact ⟨v, convert_of_isSubtypeOf hv (Kind.over_ref.1 hs) (Kind.over_ref.1 ht) below h⟩
  · exact convert_boxed_of_isConvertibleTo boxed h convertible

/-- What the kinds of a conversion promise for a value of the source kind. -/
structure ConversionAgreement (source target : Kind) (v : Value) : Prop where
  /-- Where the kinds convert, the value does or is found not to be of the target kind. -/
  outcome : source.isConvertibleTo target = true →
    (∃ w, v.convert source target = .ok w ∧ w.conforms target = true) ∨
      CastFails (v.convert source target)
  /-- It does where the kinds settle that. -/
  settled : source.isConvertibleTo target = true → SettledByKinds source target v →
    ∃ w, v.convert source target = .ok w ∧ w.conforms target = true
  /-- Where the kinds do not convert, only `null` passes, from reference to reference. -/
  refused : source.isConvertibleTo target = false →
    ¬ (v = null ∧ source.refType?.isSome = true ∧ target.refType?.isSome = true) →
      CastFails (v.convert source target)
  /-- A reference stays the same reference. -/
  cast : ∀ s t w, source = .ref s → target = .ref t → v.convert source target = .ok w → w = v
  /-- A primitive stays the same in a slot above its own wrapper. -/
  boxed : ∀ p t, v.prim? = some p → source = .prim p → target = .ref t →
    (RefType.boxed p).isSubtypeOf t = true → v.convert source target = .ok v

/-- What is decided of two kinds holds for every value of the first one. -/
theorem conversion_agreement {v : Value} {source target : Kind} (hv : v.Over F.Has)
    (hs : source.Over F.Has) (ht : target.Over F.Has) (h : v.conforms source = true) :
    ConversionAgreement source target v where
  outcome _ := by
    rcases convert_eq_ok_or_castFails v source target with ⟨w, hw⟩ | fails
    · exact .inl ⟨w, hw, conforms_of_convert hs ht h hw⟩
    · exact .inr fails
  settled convertible byKinds := by
    obtain ⟨w, hw⟩ := convert_of_settledByKinds hv hs ht h convertible byKinds
    exact ⟨w, hw, conforms_of_convert hs ht h hw⟩
  refused inconvertible notNull := convert_of_not_isConvertibleTo hv hs ht h inconvertible notNull
  cast s t w := by
    rintro rfl rfl hw
    cases same : Kind.ref s == Kind.ref t with
    | true => simpa [convert, same, eq_comm] using hw
    | false =>
      rw [convert_ref v same] at hw
      exact (checkCast_eq_ok_iff.1 hw).1
  boxed p t hp := by
    rintro rfl rfl below
    have target : p.boxTarget? t = some p := by simp [Prim.boxTarget?, below]
    simpa [convert, BEq.beq, Kind.same, target] using widen_self hp

/-- A throwable is cast down to the class above its own, and is the same throwable. -/
theorem conversion_agreement_downcast :
    (throwable ⟨0, .nullPointer, "absent"⟩).Over ClassFamily.builtin.Has ∧
    (throwable ⟨0, .nullPointer, "absent"⟩).conforms .throwable = true ∧
    ConversionAgreement .throwable (.ofClass .runtimeException)
      (throwable ⟨0, .nullPointer, "absent"⟩) ∧
    (throwable ⟨0, .nullPointer, "absent"⟩).convert .throwable (.ofClass .runtimeException) =
      .ok (throwable ⟨0, .nullPointer, "absent"⟩) := by
  have given : (throwable ⟨0, .nullPointer, "absent"⟩).Over ClassFamily.builtin.Has := by
    rintro t ⟨⟩
    simp [RefType.Over, ClassFamily.builtin, ClassDef.builtins]
  have source : Kind.throwable.Over ClassFamily.builtin.Has := by
    simp [Kind.throwable, RefType.Over]
  have target : (Kind.ofClass .runtimeException).Over ClassFamily.builtin.Has := by
    simp [Kind.ofClass, ClassFamily.builtin, ClassDef.builtins]
  exact ⟨given, by decide, conversion_agreement given source target (by decide), rfl⟩

end Value
end TypedHandles
