import TypedHandles.Proofs.Accessors
import TypedHandles.Proofs.History

/-!
The fields of objects as a typed map that found constructors, setters and getters work on. A log of
what was stored, and at which kind, goes along with a run. Every field holds what the log says was
stored in it last, and that is a value of the kind at which it was stored.
-/
namespace TypedHandles

/-- What a call stored: all fields of a new object, or a value in one field, by a setter that takes
values of the given kind. -/
inductive Stored where
  | object (o : ObjectRef) (fields : List Value)
  | field (o : ObjectRef) (name : String) (kind : Kind) (v : Value)

namespace Stored

/-- The value that was stored last in the field at a position of an object, and the kind at which it
was stored. A constructor stores at the kinds that the class declares. The latest of all comes
first. -/
def last? (o : ObjectRef) (i : Nat) : List Stored → Option (Value × Kind)
  | [] => none
  | .object p fields :: earlier =>
    if p.id = o.id then (fields.zip (o.cls.fields.map (·.2)))[i]? else last? o i earlier
  | .field p name kind v :: earlier =>
    if p.id = o.id ∧ o.cls.fieldIndex? name = some i then some (v, kind) else last? o i earlier

/-- What was stored last was stored at the declared kind, unless a setter has stored it. -/
theorem kind_of_last? {o : ObjectRef} {i : Nat} {log : List Stored} {v : Value} {kind : Kind}
    (last : last? o i log = some (v, kind)) :
    (∃ name, o.cls.fields[i]? = some (name, kind)) ∨
      ∃ p name, .field p name kind v ∈ log ∧ p.id = o.id ∧ o.cls.fieldIndex? name = some i := by
  induction log with
  | nil => cases last
  | cons stored earlier ih =>
    have before : last? o i earlier = some (v, kind) →
        (∃ name, o.cls.fields[i]? = some (name, kind)) ∨
          ∃ p name, .field p name kind v ∈ stored :: earlier ∧ p.id = o.id ∧
            o.cls.fieldIndex? name = some i := by
      intro last
      rcases ih last with declared | ⟨p, name, mem, same, found⟩
      · exact .inl declared
      · exact .inr ⟨p, name, .tail _ mem, same, found⟩
    unfold last? at last
    cases stored with
    | object p fields =>
      dsimp only at last
      split at last
      · left
        obtain ⟨-, declared⟩ := List.getElem?_zip_eq_some.1 last
        simpa using declared
      · exact before last
    | field p name own w =>
      dsimp only at last
      split at last
      · next here =>
        cases last
        exact .inr ⟨p, name, .head _, here⟩
      · exact before last

end Stored

/-- A field of an object holds what was stored in it last, and that is of the kind at which it was
stored. -/
structure State.HoldsLast (s : State) (log : List Stored) (o : ObjectRef) (i : Nat) (v : Value)
    (kind : Kind) : Prop where
  last : Stored.last? o i log = some (v, kind)
  here : s.field? o i = some v
  typed : v.conforms kind = true

/-- What leaves the field alone leaves what it holds. -/
theorem State.HoldsLast.congr {s t : State} {log log' : List Stored} {o : ObjectRef} {i : Nat}
    {v : Value} {kind : Kind} (holds : s.HoldsLast log o i v kind)
    (last : Stored.last? o i log' = Stored.last? o i log) (here : t.field? o i = s.field? o i) :
    t.HoldsLast log' o i v kind :=
  ⟨last.trans holds.last, here.trans holds.here, holds.typed⟩

/-- What a call of a found member stores, by the signature of its handle and how the call ends. -/
def MemberQuery.stores (q : MemberQuery) (signature : Signature) (args : List Value)
    (result : Except Halt Value) : List Stored :=
  match q, result with
  | .constructor .., .ok (.object o) => [.object o args]
  | .setter _ name _, .ok _ =>
    match args, signature.params with
    | [.object o, v], [_, kind] => [.field o name kind v]
    | _, _ => []
  | _, _ => []

/-- Runs of found constructors, getters and setters on objects that these constructors made, with
what they stored, the latest first. In between anything may happen that leaves objects alone. -/
inductive FieldRun (F : ClassFamily) : List Stored → State → Prop
  | start (s : State) : FieldRun F [] s
  | other {log : List Stored} {s t : State} : FieldRun F log s → t.objects = s.objects →
      FieldRun F log t
  | call {log : List Stored} {s t : State} {q : MemberQuery} {h : Handle} {args : List Value}
      {result : Except Halt Value} (host : Host) (n : Nat) : FieldRun F log s → h.FoundOver F q →
      q.request.kind ≠ .static → q.request.kind ≠ .virtual →
      (∀ o, .object o ∈ args → ∃ fields, .object o fields ∈ log) →
      h.invokeExact (runCode host (n + 2)) args s = (result, t) →
      FieldRun F (q.stores h.signature args result ++ log) t

/-- What a run promises of the objects that it made. -/
structure FieldStore (F : ClassFamily) (log : List Stored) (s : State) : Prop where
  has : ∀ {o made}, .object o made ∈ log → F.Has o.cls
  inside : ∀ {o made}, .object o made ∈ log → o.id < s.objects.size
  unique : ∀ {o p made other}, .object o made ∈ log → .object p other ∈ log → p.id = o.id → p = o
  /-- Setters have stored in these objects only. -/
  known : ∀ {p name kind v}, .field p name kind v ∈ log → ∃ made, .object p made ∈ log
  length : ∀ {o made}, .object o made ∈ log → (s.fields o).length = o.cls.fields.length
  holds : ∀ {o made i}, .object o made ∈ log → i < o.cls.fields.length →
    ∃ v kind, s.HoldsLast log o i v kind

namespace FieldStore

variable {F : ClassFamily} {log : List Stored} {s t : State} {o : ObjectRef}

theorem start (s : State) : FieldStore F [] s where
  has mem := nomatch mem
  inside mem := nomatch mem
  unique mem := nomatch mem
  known mem := nomatch mem
  length mem := nomatch mem
  holds mem := nomatch mem

/-- What leaves objects alone keeps the promises. -/
theorem congr (store : FieldStore F log s) (same : t.objects = s.objects) :
    FieldStore F log t := by
  have fields : ∀ p, t.fields p = s.fields p := by
    intro p
    unfold State.fields
    rw [same]
  refine ⟨store.has, fun mem => same ▸ store.inside mem, store.unique, store.known,
    fun mem => fields _ ▸ store.length mem, ?holds⟩
  case holds =>
    intro o made i mem inside
    obtain ⟨v, kind, holds⟩ := store.holds mem inside
    have here : t.field? o i = s.field? o i := congrArg (·[i]?) (fields o)
    exact ⟨v, kind, holds.congr rfl here⟩

/-- An object has a slot for each field that its class declares. -/
theorem lt_length {made : List Value} {name : String} {i : Nat} (store : FieldStore F log s)
    (isMade : .object o made ∈ log) (found : o.cls.fieldIndex? name = some i) :
    i < (s.fields o).length := by
  rw [store.length isMade]
  exact ClassDef.lt_of_fieldIndex? found

/-- A new object takes a place of its own, and its fields belong to the kinds of its class. -/
theorem withObject {c : ClassDef} {args : List Value} (store : FieldStore F log s) (has : F.Has c)
    (conform : Conform args (c.fields.map (·.2))) :
    FieldStore F (.object ⟨s.objects.size, c⟩ args :: log) (s.withObject args) := by
  have grown : (s.withObject args).objects.size = s.objects.size + 1 := Array.size_push _
  have new : (s.withObject args).fields ⟨s.objects.size, c⟩ = args :=
    State.fields_withObject rfl
  have old : ∀ {o made}, .object o made ∈ log → (s.withObject args).fields o = s.fields o :=
    fun mem => State.fields_withObject_of_lt (store.inside mem)
  have apart : ∀ {o made}, .object o made ∈ log → s.objects.size ≠ o.id :=
    fun mem => Nat.ne_of_gt (store.inside mem)
  have lengths : args.length = c.fields.length := by simpa using conform.length_eq
  refine ⟨?has, ?inside, ?unique, ?known, ?length, ?holds⟩
  case has =>
    intro o made mem
    rcases List.mem_cons.1 mem with here | mem
    · cases here
      exact has
    · exact store.has mem
  case inside =>
    intro o made mem
    rw [grown]
    rcases List.mem_cons.1 mem with here | mem
    · cases here
      exact Nat.lt_succ_self _
    · exact Nat.lt_succ_of_lt (store.inside mem)
  case unique =>
    intro o p made other mem mem' same
    rcases List.mem_cons.1 mem with here | mem <;> rcases List.mem_cons.1 mem' with here' | mem'
    · cases here
      cases here'
      rfl
    · cases here
      exact absurd same.symm (apart mem')
    · cases here'
      exact absurd same (apart mem)
    · exact store.unique mem mem' same
  case known =>
    intro p name kind v mem
    rcases List.mem_cons.1 mem with here | mem
    · cases here
    · obtain ⟨made, isMade⟩ := store.known mem
      exact ⟨made, .tail _ isMade⟩
  case length =>
    intro o made mem
    rcases List.mem_cons.1 mem with here | mem
    · cases here
      rw [new]
      exact lengths
    · rw [old mem]
      exact store.length mem
  case holds =>
    intro o made i mem inside
    rcases List.mem_cons.1 mem with here | mem
    · cases here
      have given : i < args.length := Nat.lt_of_lt_of_eq inside lengths.symm
      have declared : i < (c.fields.map (·.2)).length := by simpa using inside
      refine ⟨args[i], (c.fields.map (·.2))[i], ?_, ?_, conform.get given declared⟩
      · unfold Stored.last?
        rw [if_pos rfl, List.getElem?_zip_eq_some]
        exact ⟨List.getElem?_eq_getElem given, List.getElem?_eq_getElem declared⟩
      · unfold State.field?
        rw [new]
        exact List.getElem?_eq_getElem given
    · obtain ⟨v, kind, holds⟩ := store.holds mem inside
      have here : (s.withObject args).field? o i = s.field? o i := congrArg (·[i]?) (old mem)
      exact ⟨v, kind, holds.congr (if_neg (apart mem)) here⟩

/-- A stored value is there, belongs to the kind at which it was stored, and moves nothing else. -/
theorem withField {made : List Value} {name : String} {i : Nat} {kind : Kind} {v : Value}
    (store : FieldStore F log s) (isMade : .object o made ∈ log)
    (found : o.cls.fieldIndex? name = some i) (conforms : v.conforms kind = true) :
    FieldStore F (.field o name kind v :: log) (s.withField o i v) := by
  have given := store.lt_length isMade found
  have earlier : ∀ {p made}, .object p made ∈ .field o name kind v :: log →
      .object p made ∈ log := by
    intro p made mem
    rcases List.mem_cons.1 mem with here | mem
    · cases here
    · exact mem
  refine ⟨fun mem => store.has (earlier mem), ?inside, ?unique, ?known, ?length, ?holds⟩
  case inside =>
    intro p made mem
    unfold State.withField
    simpa using store.inside (earlier mem)
  case unique => exact fun mem mem' => store.unique (earlier mem) (earlier mem')
  case known =>
    intro p other own w mem
    rcases List.mem_cons.1 mem with here | mem
    · cases here
      exact ⟨made, .tail _ isMade⟩
    · obtain ⟨made, isMade⟩ := store.known mem
      exact ⟨made, .tail _ isMade⟩
  case length =>
    intro p made mem
    by_cases same : p.id = o.id
    · cases store.unique isMade (earlier mem) same
      rw [State.fields_withField (State.inside_of_fields given) rfl, List.length_set]
      exact store.length isMade
    · rw [State.fields_withField_of_ne same]
      exact store.length (earlier mem)
  case holds =>
    intro p made j mem inside
    by_cases here : p.id = o.id ∧ j = i
    · obtain ⟨same, rfl⟩ := here
      cases store.unique isMade (earlier mem) same
      exact ⟨v, kind, if_pos ⟨rfl, found⟩, State.field?_withField given rfl, conforms⟩
    · obtain ⟨w, own, holds⟩ := store.holds (earlier mem) inside
      have apart : ¬ (o.id = p.id ∧ p.cls.fieldIndex? name = some j) := by
        intro ⟨same, place⟩
        cases store.unique isMade (earlier mem) same.symm
        cases found.symm.trans place
        exact here ⟨rfl, rfl⟩
      have stays := State.field?_withField_of_ne (v := v) given
        fun same clash => here ⟨same, clash⟩
      exact ⟨w, own, holds.congr (if_neg apart) stays⟩

end FieldStore

theorem MemberQuery.stores_error (q : MemberQuery) (signature : Signature) (args : List Value)
    (e : Halt) : q.stores signature args (.error e) = [] := by
  cases q with
  | static | virtual | getter | setter | constructor => rfl

namespace FieldStore

variable {F : ClassFamily} {log : List Stored} {s t : State} {h : Handle} {args : List Value}
  {result : Except Halt Value} {owner name : String} {kind : Kind} {host : Host} {n : Nat}

/-- A getter stores nothing. -/
theorem callGetter (store : FieldStore F log s) (found : h.FoundOver F (.getter owner name kind))
    (conform : Conform args h.signature.params)
    (called : h.invokeExact (runCode host (n + 2)) args s = (result, t)) : FieldStore F log t := by
  obtain ⟨c, own, -, -, -, -, performs⟩ := found.getter
  have state : (h.invokeExact (runCode host (n + 2)) args s).2 = t := congrArg Prod.snd called
  apply store.congr
  rw [← state, performs.invokeExact_state conform]
  exact Action.perform_getField_objects _ args

/-- A setter stores what it says, and it stores nothing if it fails. -/
theorem callSetter (store : FieldStore F log s) (found : h.FoundOver F (.setter owner name kind))
    (conform : Conform args h.signature.params)
    (known : ∀ o, .object o ∈ args → ∃ made, .object o made ∈ log)
    (called : h.invokeExact (runCode host (n + 2)) args s = (result, t)) :
    FieldStore F
      ((MemberQuery.setter owner name kind).stores h.signature args result ++ log) t := by
  obtain ⟨c, own, -, -, -, shape, performs⟩ := found.setter
  have two : Conform args [.ofClass c, own] := by
    rw [shape] at conform
    exact conform
  match args, two with
  | [w, v], .cons _ (.cons second .nil) =>
    rcases Action.perform_setField_cases (callHost host (runCode host n)) w v s with
      ⟨e, u, failed, same⟩ | ⟨o, i, rfl, found, -, done⟩
    · cases (performs.invokeExact_of_error conform failed).symm.trans called
      rw [MemberQuery.stores_error]
      exact store.congr same
    · have ret : Value.void.conforms h.signature.ret = true := by
        rw [shape]
        rfl
      cases (performs.invokeExact_of_ok conform done ret).symm.trans called
      obtain ⟨made, isMade⟩ := known o (.head _)
      have stored : (MemberQuery.setter owner name kind).stores h.signature [.object o, v]
          (.ok .void) = [.field o name own v] := by
        rw [shape]
        rfl
      rw [stored]
      exact store.withField isMade found second

/-- A constructor makes an object of its class. -/
theorem callConstructor {params : List Kind} (store : FieldStore F log s)
    (found : h.FoundOver F (.constructor owner params))
    (conform : Conform args h.signature.params)
    (called : h.invokeExact (runCode host (n + 2)) args s = (result, t)) :
    FieldStore F
      ((MemberQuery.constructor owner params).stores h.signature args result ++ log) t := by
  obtain ⟨c, has, shape, performs⟩ := found.constructor
  have fields : Conform args (c.fields.map (·.2)) := by
    rw [shape] at conform
    exact conform
  have lengths : args.length = c.fields.length := by simpa using fields.length_eq
  have ret : (Value.object ⟨s.objects.size, c⟩).conforms h.signature.ret = true := by
    rw [shape]
    exact RefType.isSubtypeOf_refl _
  have done := Action.perform_construct (callHost host (runCode host n)) lengths s
  cases (performs.invokeExact_of_ok conform done ret).symm.trans called
  exact store.withObject has fields

end FieldStore

/-- Every run keeps its promises. -/
theorem FieldRun.store {F : ClassFamily} {log : List Stored} {s : State} (run : FieldRun F log s) :
    FieldStore F log s := by
  induction run with
  | start s => exact .start s
  | other _ same ih => exact ih.congr same
  | @call log s t q h args result host n _ found notStatic notVirtual known called ih =>
    by_cases conform : Conform args h.signature.params
    · cases q with
      | static => exact absurd rfl notStatic
      | virtual => exact absurd rfl notVirtual
      | getter => exact ih.callGetter found conform called
      | setter => exact ih.callSetter found conform known called
      | constructor => exact ih.callConstructor found conform called
    · obtain ⟨failure, -, refused⟩ :=
        Handle.invokeExact_of_not_conform conform (runCode host (n + 2))
      cases (refused s).symm.trans called
      rw [MemberQuery.stores_error]
      exact ih

namespace FieldStore

variable {F : ClassFamily} {log : List Stored} {s : State} {o : ObjectRef} {made : List Value}
  {h : Handle} {owner name : String} {kind : Kind}

/-- An object of the name of the class that an accessor was found in is of this class. -/
theorem cls_eq (store : FieldStore F log s) (isMade : .object o made ∈ log)
    {c : ClassDef} (has : F.Has c) (named : c.name = owner) (same : o.cls.name = owner) :
    o.cls = c :=
  F.eq_of_name_eq (store.has isMade) has (same.trans named.symm)

/-- A setter stores its value and changes nothing else, if the field is one of the receiver's
class, at whatever kind. -/
theorem setter_eq (store : FieldStore F log s) (isMade : .object o made ∈ log) {v : Value}
    (found : h.FoundOver F (.setter owner name kind))
    (conform : Conform [.object o, v] h.signature.params) {i : Nat}
    (declared : o.cls.fieldIndex? name = some i) (host : Host) (n : Nat) :
    h.invokeExact (runCode host (n + 2)) [.object o, v] s = (.ok .void, s.withField o i v) ∧
      (s.withField o i v).field? o i = some v ∧
      ∀ p j, (p.id = o.id → j ≠ i) → (s.withField o i v).field? p j = s.field? p j := by
  obtain ⟨c, _, -, -, -, shape, performs⟩ := found.setter
  have given := store.lt_length isMade declared
  have ret : Value.void.conforms h.signature.ret = true := by
    rw [shape]
    rfl
  refine ⟨?_, State.field?_withField given rfl,
    fun p j other => State.field?_withField_of_ne given other⟩
  exact performs.invokeExact_of_ok conform (Action.perform_setField _ declared given) ret

end FieldStore

/-- What a call yields that read a value for a result of the given kind. A value that does not
belong to the kind fails the call, and for `void` no value is kept. -/
structure Exec.YieldsAs (kind : Kind) (v : Value) (s : State) (call : Exec Value) : Prop where
  conforming : v.conforms kind = true → call s = (.ok v, s)
  other : v.conforms kind = false → kind ≠ .void →
    call s = (.error (.failed (v.castFailure kind)), s)
  void : kind = .void → call s = (.ok .void, s)

/-- A handle whose action reads a value yields it at the kind of the handle's result. -/
theorem Handle.Performs.yieldsAs {h : Handle} {action : Action} {args : List Value} {host : Host}
    {n : Nat} {s : State} {v : Value} (performs : h.Performs action)
    (conform : Conform args h.signature.params)
    (done : action.perform (callHost host (runCode host n)) args s = (.ok v, s)) :
    (h.invokeExact (runCode host (n + 2)) args).YieldsAs h.signature.ret v s where
  conforming := performs.invokeExact_of_ok conform done
  other stranger nonVoid := by
    have kept : ¬ h.signature.ret.isVoid = true := fun isVoid => nonVoid (Kind.isVoid_iff.1 isVoid)
    have refused : Step.checkResult h.signature.ret v s =
        (.error (.failed (v.castFailure h.signature.ret)), s) := by
      unfold Step.checkResult
      rw [if_neg kept, stranger]
      rfl
    rw [performs.invokeExact conform, bind_of_ok done, bind_of_error refused]
  void isVoid := by
    rw [performs.invokeExact conform, bind_of_ok done, isVoid]
    rfl

/-- What a getter does with an object whose own class declares the field, at whatever kind. -/
structure Handle.GetsField (h : Handle) (owner name : String) (o : ObjectRef) (log : List Stored)
    (s : State) (run : Runner) : Prop where
  /-- The class that the getter was found in declares the field at the getter's kind. -/
  owner : o.cls.name = owner → o.cls.fieldKind? name = some h.signature.ret
  /-- It reads what was stored last in the object's field of that name. -/
  reads : ∀ i, o.cls.fieldIndex? name = some i → ∃ v kind, s.HoldsLast log o i v kind ∧
    (h.invokeExact run [.object o]).YieldsAs h.signature.ret v s

/-- What a setter does with a value and an object whose own class declares the field, at whatever
kind. -/
structure Handle.SetsField (h : Handle) (owner name : String) (o : ObjectRef) (v : Value)
    (s : State) (run : Runner) : Prop where
  /-- The class that the setter was found in declares the field at the setter's kind. -/
  owner : o.cls.name = owner → o.cls.fieldKind? name = h.signature.params[1]?
  /-- It stores the value in this field, and all other fields of all objects stay. -/
  stores : ∀ i, o.cls.fieldIndex? name = some i → ∃ t,
    h.invokeExact run [.object o, v] s = (.ok .void, t) ∧ t.field? o i = some v ∧
      ∀ p j, (p.id = o.id → j ≠ i) → t.field? p j = s.field? p j

/-- The fields of objects are a typed map. After any run, each field that the class of an object
declares holds what was stored in it last. This is a value of the kind at which it was stored, which
is the declared kind unless a setter of another class has stored it; and found accessors work on the
fields that the object's own class declares, at whatever kind. -/
theorem FieldRun.typed_map {F : ClassFamily} {log : List Stored} {s : State}
    (run : FieldRun F log s) {o : ObjectRef} {made : List Value} (isMade : .object o made ∈ log)
    (host : Host) (n : Nat) :
    (∀ i name own, o.cls.fields[i]? = some (name, own) →
      ∃ v kind, s.HoldsLast log o i v kind ∧ (kind = own ∨ .field o name kind v ∈ log)) ∧
    (∀ (h : Handle) owner name kind, h.FoundOver F (.getter owner name kind) →
      Conform [.object o] h.signature.params →
      h.GetsField owner name o log s (runCode host (n + 2))) ∧
    (∀ (h : Handle) owner name kind v, h.FoundOver F (.setter owner name kind) →
      Conform [.object o, v] h.signature.params →
      h.SetsField owner name o v s (runCode host (n + 2))) := by
  have store := run.store
  refine ⟨?slots, ?getters, ?setters⟩
  case slots =>
    intro i name own here
    obtain ⟨v, kind, holds⟩ := store.holds isMade (List.getElem?_eq_some_iff.1 here).1
    refine ⟨v, kind, holds, ?_⟩
    rcases Stored.kind_of_last? holds.last with ⟨_, declared⟩ | ⟨p, other, mem, same, found⟩
    · cases declared.symm.trans here
      exact .inl rfl
    · obtain ⟨_, isMade'⟩ := store.known mem
      cases store.unique isMade isMade' same
      obtain ⟨_, named, -⟩ := ClassDef.getElem?_fieldIndex? found
      cases named.symm.trans here
      exact .inr mem
  case getters =>
    intro h owner name kind found conform
    obtain ⟨c, own, has, named, declared, shape, performs⟩ := found.getter
    refine ⟨fun same => ?_, fun i place => ?_⟩
    · rw [store.cls_eq isMade has named same, declared, shape]
    · obtain ⟨v, stored, holds⟩ := store.holds isMade (ClassDef.lt_of_fieldIndex? place)
      have read :=
        Action.perform_getField (c := c) (callHost host (runCode host n)) place holds.here
      exact ⟨v, stored, holds, performs.yieldsAs conform read⟩
  case setters =>
    intro h owner name kind v found conform
    obtain ⟨c, own, has, named, declared, shape, performs⟩ := found.setter
    refine ⟨fun same => ?_, fun i place => ?_⟩
    · rw [store.cls_eq isMade has named same, declared, shape]
      rfl
    · exact ⟨_, store.setter_eq isMade found conform place host n⟩

namespace ClassDef

/-- A class with three fields. -/
def wide : ClassDef :=
  ⟨"Wide", none, false, [("a", .int), ("b", .int), ("c", .int)], []⟩

/-- A class below that declares two of the fields anew, one of them at another kind. -/
def narrow : ClassDef :=
  ⟨"Narrow", some (.cls wide), false, [("b", .ref .string), ("c", .int)], []⟩

end ClassDef

/-- The family of the two classes. -/
def ClassFamily.wideAndNarrow : ClassFamily where
  Has c := c = .wide ∨ c = .narrow
  eq_of_name_eq := by
    rintro c d (rfl | rfl) (rfl | rfl) same
    · rfl
    · exact absurd same (by decide)
    · exact absurd same (by decide)
    · rfl
  superclass_over := by
    rintro c r (rfl | rfl) above
    · cases above
    · cases above
      simp

/-- A registry of the two classes. -/
def Registry.wideAndNarrow : Registry := (Registry.empty.registerClass .wide).registerClass .narrow

/-- The state with this registry alone. -/
def State.wideAndNarrow : State := { State.empty with registries := #[.wideAndNarrow] }

/-- What a lookup finds in this state. -/
theorem Handle.FoundOver.wideAndNarrow {q : MemberQuery} {h : Handle} {t : State}
    (found : (⟨"Main", 0, none, 0⟩ : Lookup).findMember q .wideAndNarrow = (.ok h, t)) :
    h.FoundOver .wideAndNarrow q := by
  refine ⟨_, .wideAndNarrow, _, _, rfl, .cls _ (.cls _ .empty), ?_, found⟩
  simp [Registry.wideAndNarrow, Registry.registerClass, Registry.empty, ClassFamily.wideAndNarrow]

/-- The handle of a member, the first handle of all. -/
def Handle.ofMember (signature : Signature) (action : Action) : Handle :=
  ⟨0, signature, (Blueprint.ofAction signature action).program, false⟩

/-- An object of the class below, made by its constructor. -/
def ObjectRef.narrow : ObjectRef := ⟨0, .narrow⟩

theorem FieldRun.ofNarrow :
    FieldRun .wideAndNarrow [.object .narrow [.str "t", .int 5]]
      (State.wideAndNarrow.withObject [.str "t", .int 5]) := by
  let h := Handle.ofMember ⟨.ofClass .narrow, [.ref .string, .int]⟩ (.construct .narrow)
  have found : h.FoundOver .wideAndNarrow (.constructor "Narrow" [.ref .string, .int]) :=
    .wideAndNarrow rfl
  have plain : ∀ o, .object o ∈ [Value.str "t", .int 5] →
      ∃ fields, .object o fields ∈ ([] : List Stored) := by simp
  have called : h.invokeExact (runCode .idle 2) [.str "t", .int 5] .wideAndNarrow =
      (.ok (.object .narrow), State.wideAndNarrow.withObject [.str "t", .int 5]) := rfl
  exact .call .idle 0 (.start _) found (by decide) (by decide) plain called

/-- A number is stored in a field of texts by the setter of the class above. The getter of the class
above reads it, the one of the object's own class does not, and the other field is as it was. -/
theorem FieldRun.typed_map_narrow :
    let o : ObjectRef := .narrow
    let log : List Stored := [.field o "b" .int (.int 1), .object o [.str "t", .int 5]]
    let s := (State.wideAndNarrow.withObject [.str "t", .int 5]).withField o 0 (.int 1)
    let wideB := Handle.ofMember ⟨.int, [.ofClass .wide]⟩ (.getField .wide "b")
    let narrowB := Handle.ofMember ⟨.ref .string, [.ofClass .narrow]⟩ (.getField .narrow "b")
    let narrowC := Handle.ofMember ⟨.int, [.ofClass .narrow]⟩ (.getField .narrow "c")
    FieldRun .wideAndNarrow log s ∧ .object o [.str "t", .int 5] ∈ log ∧
      wideB.FoundOver .wideAndNarrow (.getter "Wide" "b" .int) ∧
      narrowB.FoundOver .wideAndNarrow (.getter "Narrow" "b" (.ref .string)) ∧
      narrowC.FoundOver .wideAndNarrow (.getter "Narrow" "c" .int) ∧
      wideB.invokeExact (runCode .idle 2) [.object o] s = (.ok (.int 1), s) ∧
      narrowB.invokeExact (runCode .idle 2) [.object o] s =
        (.error (.failed ((Value.int 1).castFailure (.ref .string))), s) ∧
      narrowC.invokeExact (runCode .idle 2) [.object o] s = (.ok (.int 5), s) := by
  intro o log s wideB narrowB narrowC
  let g := Handle.ofMember ⟨.void, [.ofClass .wide, .int]⟩ (.setField .wide "b")
  have setter : g.FoundOver .wideAndNarrow (.setter "Wide" "b" .int) := .wideAndNarrow rfl
  have called : g.invokeExact (runCode .idle 2) [.object o, .int 1]
      (State.wideAndNarrow.withObject [.str "t", .int 5]) = (.ok .void, s) := rfl
  have run : FieldRun .wideAndNarrow log s := by
    refine .call .idle 0 .ofNarrow setter (by decide) (by decide) (fun p mem => ?_) called
    have same : p = o := by simpa using mem
    rw [same]
    exact ⟨_, .head _⟩
  have isMade : .object o [.str "t", .int 5] ∈ log := .tail _ (.head _)
  have wideFound : wideB.FoundOver .wideAndNarrow (.getter "Wide" "b" .int) := .wideAndNarrow rfl
  have narrowFound : narrowB.FoundOver .wideAndNarrow (.getter "Narrow" "b" (.ref .string)) :=
    .wideAndNarrow rfl
  have otherFound : narrowC.FoundOver .wideAndNarrow (.getter "Narrow" "c" .int) :=
    .wideAndNarrow rfl
  obtain ⟨-, getters, -⟩ := FieldRun.typed_map run isMade .idle 0
  obtain ⟨v, _, holds, wide⟩ :=
    (getters wideB "Wide" "b" .int wideFound (.cons (by decide) .nil)).reads 0 rfl
  obtain ⟨w, _, holds', narrow⟩ :=
    (getters narrowB "Narrow" "b" (.ref .string) narrowFound (.cons (by decide) .nil)).reads 0 rfl
  obtain ⟨u, _, holds'', other⟩ :=
    (getters narrowC "Narrow" "c" .int otherFound (.cons (by decide) .nil)).reads 1 rfl
  cases holds.last
  cases holds'.last
  cases holds''.last
  exact ⟨run, isMade, wideFound, narrowFound, otherFound, wide.conforming rfl,
    narrow.other rfl nofun, other.conforming rfl⟩

/-- A getter fails on an inherited field, a setter stores a number in a field of texts, where the
getter of the field fails on it, and a getter yields what the setter of another class has stored. -/
theorem FieldRun.typed_map_inherited :
    let o : ObjectRef := .narrow
    ∃ s getA setB getB setC getC, FieldRun .wideAndNarrow [.object o [.str "t", .int 5]] s ∧
      Handle.FoundOver .wideAndNarrow (.getter "Wide" "a" .int) getA ∧
      Handle.FoundOver .wideAndNarrow (.setter "Wide" "b" .int) setB ∧
      Handle.FoundOver .wideAndNarrow (.getter "Narrow" "b" (.ref .string)) getB ∧
      Handle.FoundOver .wideAndNarrow (.setter "Wide" "c" .int) setC ∧
      Handle.FoundOver .wideAndNarrow (.getter "Narrow" "c" .int) getC ∧
      Conform [.object o] getA.signature.params ∧
      getA.invokeExact (runCode .idle 2) [.object o] s =
        (.error (.failed (.noSuchMember "Narrow" "a")), s) ∧
      (∃ t, setB.invokeExact (runCode .idle 2) [.object o, .int 1] s = (.ok .void, t) ∧
        t.field? o 0 = some (.int 1) ∧ o.cls.fields[0]? = some ("b", .ref .string) ∧
        (Value.int 1).conforms (.ref .string) = false ∧
        getB.invokeExact (runCode .idle 2) [.object o] t =
          (.error (.failed ((Value.int 1).castFailure (.ref .string))), t)) ∧
      (∃ t, setC.invokeExact (runCode .idle 2) [.object o, .int 9] s = (.ok .void, t) ∧
        getC.invokeExact (runCode .idle 2) [.object o] t = (.ok (.int 9), t)) := by
  intro o
  refine ⟨_, _, _, _, _, _, .ofNarrow, .wideAndNarrow rfl, .wideAndNarrow rfl, .wideAndNarrow rfl,
    .wideAndNarrow rfl, .wideAndNarrow rfl, .cons (by decide) .nil, rfl, ?typed, ?shared⟩
  case typed =>
    exact ⟨(State.wideAndNarrow.withObject [.str "t", .int 5]).withField o 0 (.int 1),
      rfl, rfl, rfl, rfl, rfl⟩
  case shared =>
    exact ⟨(State.wideAndNarrow.withObject [.str "t", .int 5]).withField o 1 (.int 9), rfl, rfl⟩

end TypedHandles
