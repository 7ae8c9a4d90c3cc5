import TypedHandles.Proofs.Members

/-!
What found constructors, getters and setters do to objects.

An object has one slot for each field that its own class declares; what the classes above declare is
not in it. An accessor is found in one class and works on objects of the classes below, where it
looks its field up by name. So the accessors of a name share one slot, whatever class they were
found in.
-/
namespace TypedHandles

namespace ClassDef

variable {c : ClassDef} {name : String} {i : Nat} {kind : Kind}

theorem fieldKind?_eq (c : ClassDef) (name : String) :
    c.fieldKind? name = (c.fieldIndex? name).bind fun i => (c.fields.map (·.2))[i]? := by
  unfold fieldKind? fieldIndex?
  rw [List.find?_eq_bind_findIdx?_getElem?]
  cases c.fields.findIdx? (·.1 == name) with
  | none => rfl
  | some i => simp

/-- A field has its name and its kind where it is found. -/
theorem getElem?_fieldIndex? (found : c.fieldIndex? name = some i) :
    ∃ kind, c.fields[i]? = some (name, kind) ∧ c.fieldKind? name = some kind := by
  obtain ⟨inside, named, -⟩ := List.findIdx?_eq_some_iff_getElem.1 found
  have here : c.fields[i]? = some (name, c.fields[i].2) := by
    rw [List.getElem?_eq_getElem inside, ← eq_of_beq named]
  refine ⟨_, here, ?_⟩
  rw [fieldKind?_eq, found]
  simp [here]

theorem lt_of_fieldIndex? (found : c.fieldIndex? name = some i) : i < c.fields.length := by
  obtain ⟨kind, here, -⟩ := getElem?_fieldIndex? found
  exact (List.getElem?_eq_some_iff.1 here).1

end ClassDef

/-! Found constructors, getters and setters. -/

/-- A handle that a lookup found over given classes. -/
def Handle.FoundOver (F : ClassFamily) (q : MemberQuery) (h : Handle) : Prop :=
  ∃ (l : Lookup) (r : Registry) (s t : State), s.registries[l.registry]? = some r ∧
    r.Registered ∧ (∀ e ∈ r.classes, F.Has e.2) ∧ l.findMember q s = (.ok h, t)

namespace Handle.FoundOver

variable {F : ClassFamily} {q : MemberQuery} {h : Handle} {owner name : String} {kind : Kind}
  {params : List Kind}

/-- What was found is what a registry over these classes offers. -/
theorem offers (found : h.FoundOver F q) :
    ∃ (r : Registry) (caller : String) (action : Action),
      (∀ owner c, r.class? owner = some c → F.Has c ∧ c.name = owner) ∧
      r.Offers caller q.request.owner q.request.name q.request.kind h.signature action ∧
      h.Performs action := by
  obtain ⟨l, r, s, t, registry, registered, given, found⟩ := found
  obtain ⟨action, offers, performs⟩ := Lookup.offers_of_findMember registry found
  refine ⟨r, l.caller, action, fun owner c known => ?_, offers, performs⟩
  exact ⟨given _ (Registry.mem_of_class? known), registered.name_of_class? known⟩

/-- A getter takes an object of the class that was asked for, and yields what the class declares. -/
theorem getter (found : h.FoundOver F (.getter owner name kind)) :
    ∃ c own, F.Has c ∧ c.name = owner ∧ c.fieldKind? name = some own ∧
      h.signature = ⟨own, [.ofClass c]⟩ ∧ h.Performs (.getField c name) := by
  obtain ⟨r, caller, _, classes, offers, performs⟩ := found.offers
  obtain ⟨c, own, known, declared, shape, rfl⟩ := offers.getter_inv
  obtain ⟨has, named⟩ := classes owner c known
  exact ⟨c, own, has, named, declared, shape, performs⟩

/-- A setter takes an object of the class that was asked for and a value of what it declares. -/
theorem setter (found : h.FoundOver F (.setter owner name kind)) :
    ∃ c own, F.Has c ∧ c.name = owner ∧ c.fieldKind? name = some own ∧
      h.signature = ⟨.void, [.ofClass c, own]⟩ ∧ h.Performs (.setField c name) := by
  obtain ⟨r, caller, _, classes, offers, performs⟩ := found.offers
  obtain ⟨c, own, known, declared, shape, rfl⟩ := offers.setter_inv
  obtain ⟨has, named⟩ := classes owner c known
  exact ⟨c, own, has, named, declared, shape, performs⟩

/-- A constructor takes a value for each field that the class declares. -/
theorem constructor (found : h.FoundOver F (.constructor owner params)) :
    ∃ c, F.Has c ∧ h.signature = ⟨.ofClass c, c.fields.map (·.2)⟩ ∧ h.Performs (.construct c) := by
  obtain ⟨r, caller, _, classes, offers, performs⟩ := found.offers
  obtain ⟨c, known, shape, rfl⟩ := offers.constructor_inv
  exact ⟨c, (classes owner c known).1, shape, performs⟩

end Handle.FoundOver

/-! What the members do to objects. -/

namespace State

/-- The state after a value is stored in a field. -/
def withField (s : State) (o : ObjectRef) (i : Nat) (v : Value) : State :=
  { s with objects := s.objects.setIfInBounds o.id ((s.fields o).set i v) }

/-- The state after an object is made. -/
def withObject (s : State) (fields : List Value) : State :=
  { s with objects := s.objects.push fields }

variable {s : State} {o p : ObjectRef} {i j : Nat} {v : Value}

/-- Only objects that are there have fields. -/
theorem inside_of_fields (given : i < (s.fields o).length) : o.id < s.objects.size := by
  by_contra outside
  unfold fields at given
  rw [Array.getElem?_eq_none (Nat.not_lt.1 outside)] at given
  cases given

theorem fields_withField (inside : o.id < s.objects.size) (same : p.id = o.id) :
    (s.withField o i v).fields p = (s.fields o).set i v := by
  unfold withField
  simp [fields, same, inside]

theorem fields_withField_of_ne (other : p.id ≠ o.id) :
    (s.withField o i v).fields p = s.fields p := by
  unfold withField
  simp [fields, Ne.symm other]

/-- A stored value is there. -/
theorem field?_withField (given : i < (s.fields o).length) (same : p.id = o.id) :
    (s.withField o i v).field? p i = some v := by
  unfold field?
  rw [fields_withField (inside_of_fields given) same]
  simp [given]

/-- All other fields of all objects stay. -/
theorem field?_withField_of_ne (given : i < (s.fields o).length) (other : p.id = o.id → j ≠ i) :
    (s.withField o i v).field? p j = s.field? p j := by
  unfold field?
  by_cases same : p.id = o.id
  · have fields : s.fields p = s.fields o := by
      unfold State.fields
      rw [same]
    rw [fields_withField (inside_of_fields given) same, fields,
      List.getElem?_set_ne (Ne.symm (other same))]
  · rw [fields_withField_of_ne same]

theorem fields_withObject {vs : List Value} (new : p.id = s.objects.size) :
    (s.withObject vs).fields p = vs := by
  unfold withObject
  simp [fields, new]

theorem fields_withObject_of_lt {vs : List Value} (old : p.id < s.objects.size) :
    (s.withObject vs).fields p = s.fields p := by
  unfold withObject
  simp [fields, Array.getElem?_push_lt old, old]

end State

namespace Action

variable {c : ClassDef} {o : ObjectRef} {name : String} {i : Nat} {s : State} {v w : Value}
  (native : HostFunction → List Value → Exec Value)

/-- The receiver is the first argument if it is an object. Otherwise the call fails. -/
theorem receiver_cases (c : ClassDef) (args : List Value) (s : State) :
    (∃ o rest, args = .object o :: rest ∧ receiver c args s = (.ok o, s)) ∨
      ∃ e t, receiver c args s = (.error e, t) ∧ t.objects = s.objects := by
  match args with
  | .object o :: rest => exact .inl ⟨o, rest, rfl, rfl⟩
  | [] | .null :: _ | .void :: _ | .bool _ :: _ | .byte _ :: _ | .short _ :: _ | .char _ :: _
  | .int _ :: _ | .long _ :: _ | .float _ :: _ | .double _ :: _ | .str _ :: _ | .array .. :: _
  | .throwable _ :: _ | .handle _ :: _ | .signature _ :: _ | .callSite _ :: _ =>
    exact .inr ⟨_, _, rfl, rfl⟩

/-- A getter reads the slot that the receiver's own class has for the field. -/
theorem perform_getField_eq (found : o.cls.fieldIndex? name = some i) (rest : List Value)
    (s : State) : (getField c name).perform native (.object o :: rest) s =
      match s.field? o i with
      | some v => (.ok v, s)
      | none => (.error (.failed (noMember o name)), s) := by
  unfold perform
  simp only [receiver, pure_bind, fieldIndex, found]
  show (match s.field? o i with
    | some v => (pure v : Exec Value)
    | none => Exec.refuse (noMember o name)) s = _
  cases s.field? o i with
  | none => rfl
  | some v => rfl

theorem perform_getField (found : o.cls.fieldIndex? name = some i)
    (holds : s.field? o i = some v) :
    (getField c name).perform native [.object o] s = (.ok v, s) := by
  rw [perform_getField_eq native found, holds]

theorem perform_getField_missing (missing : o.cls.fieldIndex? name = none) (rest : List Value) :
    (getField c name).perform native (.object o :: rest) s =
      (.error (.failed (noMember o name)), s) := by
  unfold perform
  simp only [receiver, pure_bind, fieldIndex, missing]
  rfl

/-- A getter changes no object. -/
theorem perform_getField_objects (args : List Value) :
    ((getField c name).perform native args s).2.objects = s.objects := by
  rcases receiver_cases c args s with ⟨o, rest, rfl, -⟩ | ⟨e, t, failed, same⟩
  · cases found : o.cls.fieldIndex? name with
    | none => rw [perform_getField_missing native found]
    | some i =>
      rw [perform_getField_eq native found]
      cases s.field? o i with
      | none => rfl
      | some v => rfl
  · unfold perform
    dsimp only
    rw [bind_of_error failed]
    exact same

/-- A setter stores in the slot that the receiver's own class has for the field, if the object has
it. -/
theorem perform_setField_eq (c : ClassDef) (o : ObjectRef) (name : String) (rest : List Value)
    (v : Value) (s : State) : (setField c name).perform native (.object o :: rest ++ [v]) s =
      match o.cls.fieldIndex? name with
      | some i =>
        if i < (s.fields o).length then (.ok .void, s.withField o i v)
        else (.error (.failed (noMember o name)), s)
      | none => (.error (.failed (noMember o name)), s) := by
  unfold perform
  simp only [List.getLast?_concat, List.dropLast_concat, Option.getD_some, receiver, pure_bind,
    fieldIndex]
  cases o.cls.fieldIndex? name with
  | none => rfl
  | some i =>
    by_cases inside : i < (s.fields o).length
    · have stored : o.setField i v s = (.ok true, s.withField o i v) := if_pos inside
      simp only [if_pos inside, pure_bind]
      rw [bind_of_ok stored]
      rfl
    · have refused : o.setField i v s = (.ok false, s) := if_neg inside
      simp only [if_neg inside, pure_bind]
      rw [bind_of_ok refused]
      rfl

theorem perform_setField (found : o.cls.fieldIndex? name = some i)
    (inside : i < (s.fields o).length) :
    (setField c name).perform native [.object o, v] s = (.ok .void, s.withField o i v) := by
  have stored := perform_setField_eq native c o name [] v s
  simp only [found, if_pos inside] at stored
  exact stored

theorem perform_construct {args : List Value} (lengths : args.length = c.fields.length)
    (s : State) : (construct c).perform native args s =
      (.ok (.object ⟨s.objects.size, c⟩), s.withObject args) := by
  unfold perform
  simp only [lengths, bne_self_eq_false, Bool.false_eq_true, if_false]
  rfl

/-- A setter stores its value, or it fails and stores nothing. -/
theorem perform_setField_cases (w v : Value) (s : State) :
    (∃ e t, (setField c name).perform native [w, v] s = (.error e, t) ∧ t.objects = s.objects) ∨
      ∃ o i, w = .object o ∧ o.cls.fieldIndex? name = some i ∧ i < (s.fields o).length ∧
        (setField c name).perform native [w, v] s = (.ok .void, s.withField o i v) := by
  rcases receiver_cases c [w] s with ⟨o, rest, first, -⟩ | ⟨e, t, failed, same⟩
  · cases first
    have performed := perform_setField_eq native c o name [] v s
    cases found : o.cls.fieldIndex? name with
    | none =>
      simp only [found] at performed
      exact .inl ⟨_, s, performed, rfl⟩
    | some i =>
      by_cases inside : i < (s.fields o).length
      · exact .inr ⟨o, i, rfl, found, inside, perform_setField native found inside⟩
      · simp only [found, if_neg inside] at performed
        exact .inl ⟨_, s, performed, rfl⟩
  · refine .inl ⟨e, t, ?_, same⟩
    unfold perform
    exact bind_of_error failed

end Action

end TypedHandles
