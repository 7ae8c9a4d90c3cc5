import TypedHandles.Proofs.Typing

/-!
Kinds that are told apart by their names only.

Where two classes may share a name, `==` on kinds and signatures is coarser than equality. It is an
equivalence all the same, and kinds that it does not tell apart have the same values.
-/
namespace TypedHandles

mutual

theorem Kind.same_congr {k l : Kind} (h : k.same l = true) (m : Kind) : k.same m = l.same m := by
  match k, l with
  | .void, .void => rfl
  | .prim p, .prim q =>
    simp only [Kind.same, beq_iff_eq] at h
    rw [h]
  | .ref r, .ref s =>
    cases m with
    | void | prim => rfl
    | ref t => exact RefType.same_congr h t
  | .void, .prim _ | .void, .ref _ | .prim _, .void | .prim _, .ref _ | .ref _, .void
  | .ref _, .prim _ => cases h

theorem RefType.same_congr {r s : RefType} (h : r.same s = true) (t : RefType) :
    r.same t = s.same t := by
  cases r <;> cases s <;> simp only [RefType.same, beq_iff_eq, Bool.false_eq_true] at h <;>
    try rfl
  case boxed =>
    rw [h]
  case array a b =>
    cases t <;> first | rfl | exact Kind.same_congr h _
  case cls c d =>
    cases t <;> first | rfl | simp only [RefType.same, h]

end

theorem RefType.same_congr_right {r s : RefType} (h : r.same s = true) (t : RefType) :
    t.same r = t.same s := by
  rw [RefType.same_comm t r, RefType.same_comm t s, RefType.same_congr h]

/-- Types of one name lie above the same types. -/
theorem RefType.isSubtypeOf_congr (r : RefType) {s t : RefType} (h : s.same t = true) :
    r.isSubtypeOf s = r.isSubtypeOf t := by
  induction r using RefType.below_induction generalizing s t with
  | step r element parent =>
    have self : (r == s) = (r == t) := RefType.same_congr_right h r
    have object : (s == .object) = (t == .object) := RefType.same_congr h .object
    have number : (s == .number) = (t == .number) := RefType.same_congr h .number
    unfold isSubtypeOf
    rw [self, object]
    congr 1
    cases r with
    | boxed p => simp only [number]
    | array k =>
      cases k with
      | ref e =>
        cases s <;> cases t <;> first | rfl | cases h | skip
        next a b => cases a <;> cases b <;> first | exact element e rfl h | rfl | cases h
      | void | prim _ => rfl
    | cls definition =>
      obtain ⟨_, above, _, _, _⟩ := definition
      cases above with
      | some above => exact parent _ above rfl rfl h
      | none => rfl
    | object | number | string | throwable | handle | signature | callSite => rfl

namespace Kind

theorem isVoid_congr {k l : Kind} (same : (k == l) = true) : k.isVoid = l.isVoid := by
  cases k <;> cases l <;> first | rfl | cases same

/-- What is told apart from no array is an array. -/
theorem eq_arrayOf_of_beq {k element : Kind} (same : (k == .arrayOf element) = true) :
    ∃ own, k = .arrayOf own := by
  cases k with
  | void | prim => cases same
  | ref t =>
    cases t with
    | array own => exact ⟨own, rfl⟩
    | object | number | string | throwable | boxed | handle | signature | callSite | cls =>
      cases same

end Kind

/-- Kinds of one name have the same values. -/
theorem Value.conforms_congr (v : Value) {k l : Kind} (same : (k == l) = true) :
    v.conforms k = v.conforms l := by
  match k, l with
  | .void, .void => rfl
  | .prim p, .prim q =>
    have eq : p = q := beq_iff_eq.1 same
    rw [eq]
  | .ref s, .ref t =>
    have every : ∀ r : RefType, r.isSubtypeOf s = r.isSubtypeOf t :=
      fun r => r.isSubtypeOf_congr same
    unfold conforms
    simp only [every]
  | .void, .prim _ | .void, .ref _ | .prim _, .void | .prim _, .ref _ | .ref _, .void
  | .ref _, .prim _ => cases same

/-! Lists of kinds. -/

theorem forall₂_of_beq {ks ls : List Kind} (same : (ks == ls) = true) :
    List.Forall₂ (fun k l => (k == l) = true) ks ls := by
  induction ks generalizing ls with
  | nil =>
    cases ls with
    | nil => exact .nil
    | cons => cases same
  | cons k ks ih =>
    cases ls with
    | nil => cases same
    | cons l ls =>
      obtain ⟨here, rest⟩ := Bool.and_eq_true_iff.1 same
      exact .cons here (ih rest)

theorem beq_of_forall₂ {ks ls : List Kind}
    (same : List.Forall₂ (fun k l => (k == l) = true) ks ls) : (ks == ls) = true := by
  induction same with
  | nil => rfl
  | cons here _ ih => exact Bool.and_eq_true_iff.2 ⟨here, ih⟩

theorem kinds_length_eq {ks ls : List Kind} (same : (ks == ls) = true) :
    ks.length = ls.length :=
  (forall₂_of_beq same).length_eq

theorem no_void_of_beq {ks ls : List Kind} (same : (ks == ls) = true)
    (nonVoid : ∀ k ∈ ks, k ≠ .void) : ∀ l ∈ ls, l ≠ .void := by
  intro l mem
  obtain ⟨i, inside, rfl⟩ := List.getElem_of_mem mem
  have here : i < ks.length := kinds_length_eq same ▸ inside
  have equal := (forall₂_of_beq same).get here inside
  have void := Kind.isVoid_congr equal
  intro isVoid
  rw [List.get_eq_getElem, List.get_eq_getElem, isVoid] at void
  exact nonVoid _ (List.getElem_mem here) (Kind.isVoid_iff.1 void)

theorem kinds_beq_congr {ks ls : List Kind} (same : (ks == ls) = true) (ms : List Kind) :
    (ks == ms) = (ls == ms) := by
  induction ks generalizing ls ms with
  | nil =>
    cases ls with
    | nil => rfl
    | cons => cases same
  | cons k ks ih =>
    cases ls with
    | nil => cases same
    | cons l ls =>
      obtain ⟨here, others⟩ := Bool.and_eq_true_iff.1 same
      cases ms with
      | nil => rfl
      | cons m ms =>
        have first : (k == m) = (l == m) := Kind.same_congr here m
        rw [List.cons_beq_cons, List.cons_beq_cons, first, ih others]

/-- Values are of the same parameters, whichever classes the names stand for. -/
theorem conform_congr {ks ls : List Kind} (same : (ks == ls) = true) (args : List Value) :
    Conform args ks ↔ Conform args ls := by
  induction ks generalizing ls args with
  | nil =>
    cases ls with
    | nil => rfl
    | cons => cases same
  | cons k ks ih =>
    cases ls with
    | nil => cases same
    | cons l ls =>
      obtain ⟨here, others⟩ := Bool.and_eq_true_iff.1 same
      cases args with
      | nil => exact ⟨nofun, nofun⟩
      | cons v vs =>
        unfold Conform at ih ⊢
        rw [List.forall₂_cons, List.forall₂_cons, v.conforms_congr here, ih others]

namespace Signature

variable {s t : Signature}

theorem beq_iff_parts : (s == t) = true ↔ (s.ret == t.ret) = true ∧ (s.params == t.params) = true :=
  Bool.and_eq_true_iff

theorem arity_congr (same : (s == t) = true) : s.arity = t.arity :=
  kinds_length_eq (beq_iff_parts.1 same).2

theorem beq_congr (same : (s == t) = true) (u : Signature) : (s == u) = (t == u) := by
  obtain ⟨ret, params⟩ := beq_iff_parts.1 same
  show (s.ret == u.ret && s.params == u.params) = (t.ret == u.ret && t.params == u.params)
  rw [show (s.ret == u.ret) = (t.ret == u.ret) from Kind.same_congr ret _,
    kinds_beq_congr params]

theorem beq_trans {u : Signature} (first : (s == t) = true) (second : (t == u) = true) :
    (s == u) = true := by
  rw [beq_congr first]
  exact second

end Signature
end TypedHandles
