import TypedHandles.Proofs.Accessors
import TypedHandles.Proofs.Privacy

/-!
Which body a found method runs for which receiver.

The first parameter of a found method is of the class that was asked for, so the instances of all
classes below pass the check of the arguments. An object runs the body of its own class, or of the
nearest class above it that declares the method; there always is one, because the class that was
asked for has the method. A throwable is an instance of a class as well and passes the check, but
its method is never looked for.
-/
namespace TypedHandles

/-- Only classes lie below a class. -/
theorem RefType.eq_cls_of_isSubtypeOf {a : RefType} {c : ClassDef}
    (below : a.isSubtypeOf (.cls c) = true) : ∃ d, a = .cls d := by
  cases a with
  | cls d => exact ⟨d, rfl⟩
  | array element => cases element <;> simp [isSubtypeOf, BEq.beq, same] at below
  | _ => simp [isSubtypeOf, BEq.beq, same] at below

namespace ClassDef

/-- The method of a name in a class, with the class that declares it: the class itself, or the
nearest one above it. -/
inductive Nearest (name : String) : ClassDef → ClassDef → Method → Prop
  | own {c : ClassDef} {method : Method} : c.methods.lookup name = some method →
      Nearest name c c method
  | inherited {c parent declarer : ClassDef} {method : Method} : c.methods.lookup name = none →
      c.superclass = some (.cls parent) → Nearest name parent declarer method →
      Nearest name c declarer method

variable {F : ClassFamily} {c d parent : ClassDef} {name : String} {method : Method}

theorem findMethod?_of_declared (declared : c.methods.lookup name = some method) :
    c.findMethod? name = some method := by
  obtain ⟨_, _, _, _, _⟩ := c
  unfold findMethod?
  rw [declared]

theorem findMethod?_of_not_declared (missing : c.methods.lookup name = none)
    (above : c.superclass = some (.cls parent)) :
    c.findMethod? name = parent.findMethod? name := by
  obtain ⟨_, _, _, _, _⟩ := c
  cases above
  rw [findMethod?, missing]

theorem Nearest.findMethod? {declarer : ClassDef} (nearest : Nearest name c declarer method) :
    c.findMethod? name = some method := by
  induction nearest with
  | own declared => exact findMethod?_of_declared declared
  | inherited missing above _ ih => exact (findMethod?_of_not_declared missing above).trans ih

theorem nearest_of_findMethod? (c : ClassDef) (found : c.findMethod? name = some method) :
    ∃ declarer, Nearest name c declarer method := by
  obtain ⟨className, superclass, final, fields, methods⟩ := c
  unfold findMethod? at found
  cases declared : methods.lookup name with
  | some own =>
    rw [declared] at found
    cases found
    exact ⟨_, .own declared⟩
  | none =>
    rw [declared] at found
    cases superclass with
    | none => cases found
    | some extended =>
      cases extended with
      | cls parent =>
        obtain ⟨declarer, nearest⟩ := parent.nearest_of_findMethod? found
        exact ⟨declarer, .inherited declared rfl nearest⟩
      | _ => cases found
termination_by structural c

/-- What is found along the chain of classes is the nearest method, and nothing else. -/
theorem findMethod?_eq_some_iff :
    c.findMethod? name = some method ↔ ∃ declarer, Nearest name c declarer method :=
  ⟨c.nearest_of_findMethod?, fun ⟨_, nearest⟩ => nearest.findMethod?⟩

/-- A class has every method that a class above it has. -/
theorem findMethod?_below (hd : F.Has d) (hc : F.Has c)
    (below : (RefType.cls d).isSubtypeOf (.cls c) = true)
    (found : c.findMethod? name = some method) : ∃ own, d.findMethod? name = some own := by
  -- The induction is along the superclasses of `d`, which lead to `c`.
  generalize start : RefType.cls d = a at below
  induction a using RefType.below_induction generalizing d with
  | step a element superclass =>
    subst start
    rcases (RefType.isSubtypeOf_iff (RefType.over_cls.2 hd) (RefType.over_cls.2 hc)).1 below with
      same | same | ⟨_, same, -⟩ | ⟨_, _, same, -⟩ | ⟨d', parent, same, above, below⟩
    · cases same
      exact ⟨method, found⟩
    · cases same
    · cases same
    · cases same
    · cases same
      obtain ⟨e, rfl⟩ := RefType.eq_cls_of_isSubtypeOf below
      cases declared : d.methods.lookup name with
      | some own => exact ⟨own, findMethod?_of_declared declared⟩
      | none =>
        have he : F.Has e := RefType.over_cls.1 (F.superclass_over hd above)
        obtain ⟨own, inherited⟩ := superclass d (.cls e) rfl above he rfl below
        exact ⟨own, (findMethod?_of_not_declared declared above).trans inherited⟩

end ClassDef

/-! Found methods. -/

theorem Registry.Offers.virtual_signature {r : Registry} {caller owner name : String}
    {signature : Signature} {action : Action}
    (offers : r.Offers caller owner name .virtual signature action) :
    ∃ c method, r.class? owner = some c ∧ c.findMethod? name = some method ∧
      signature = ⟨method.signature.ret, .ofClass c :: method.signature.params⟩ ∧
      action = .virtual c name := by
  cases offers with
  | virtual known found granted => exact ⟨_, _, known, found, rfl, rfl⟩

/-- A found method takes an instance of the class that was asked for ahead of its own arguments. -/
theorem Handle.FoundOver.virtual {F : ClassFamily} {h : Handle} {owner name : String}
    {wanted : Signature} (found : h.FoundOver F (.virtual owner name wanted)) :
    ∃ c method, F.Has c ∧ c.name = owner ∧ c.findMethod? name = some method ∧
      h.signature = ⟨method.signature.ret, .ofClass c :: method.signature.params⟩ ∧
      h.Performs (.virtual c name) := by
  obtain ⟨r, caller, _, classes, offers, performs⟩ := found.offers
  obtain ⟨c, method, known, declared, shape, rfl⟩ := offers.virtual_signature
  obtain ⟨has, named⟩ := classes owner c known
  exact ⟨c, method, has, named, declared, shape, performs⟩

/-- The method of a throwable is not looked for. -/
theorem Action.perform_virtual_throwable (c : ClassDef) (name : String) (t : Throwable)
    (rest : List Value) (native : HostFunction → List Value → Exec Value) (s : State) :
    (virtual c name).perform native (.throwable t :: rest) s =
      (.error (.failed (.classCast t.cls.name c.name)), s) := by
  have cast : (Value.throwable t).castFailure (.ofClass c) = .classCast t.cls.name c.name := by
    simp [Value.castFailure, Value.refType?, Kind.ofClass, Kind.text, RefType.text]
  unfold perform
  simp only [receiver, cast]
  rfl

/-- Instances of a class are objects and throwables. -/
theorem Value.instance_of_refType {v : Value} {d : ClassDef} (own : v.refType? = some (.cls d)) :
    (∃ o, v = .object o ∧ o.cls = d) ∨ ∃ t, v = .throwable t ∧ t.cls = d := by
  cases v with
  | object o =>
    cases own
    exact .inl ⟨o, rfl, rfl⟩
  | throwable t =>
    cases own
    exact .inr ⟨t, rfl, rfl⟩
  | _ => cases own

/-- Whatever receiver a found method is invoked on, the class of the receiver has the method. On an
object, one body runs: the nearest one, on all of the arguments. On a throwable no body runs. -/
theorem Handle.FoundOver.virtual_receivers {F : ClassFamily} {h : Handle} {owner name : String}
    {wanted : Signature} (found : h.FoundOver F (.virtual owner name wanted)) :
    ∃ c declared, F.Has c ∧ c.name = owner ∧ c.findMethod? name = some declared ∧
      h.signature = ⟨declared.signature.ret, .ofClass c :: declared.signature.params⟩ ∧
      ∀ (v : Value) (rest : List Value), v.Over F.Has → v ≠ .null →
        Conform (v :: rest) h.signature.params →
        ∃ d declarer method, v.refType? = some (.cls d) ∧
          (RefType.cls d).isSubtypeOf (.cls c) = true ∧ ClassDef.Nearest name d declarer method ∧
          ∀ (host : Host) (n : Nat),
            (∃ o, v = .object o ∧ h.invokeExact (runCode host (n + 2)) (v :: rest) = (do
              let result ← callHost host (runCode host n) method.function (v :: rest)
              let result ← Step.checkResult h.signature.ret result
              return h.signature.ret.kept result)) ∨
            ∃ t, v = .throwable t ∧ ∀ s, h.invokeExact (runCode host (n + 2)) (v :: rest) s =
              (.error (.failed (.classCast d.name owner)), s) := by
  obtain ⟨c, declared, has, named, known, shape, performs⟩ := found.virtual
  refine ⟨c, declared, has, named, known, shape, fun v rest inFamily present conform => ?_⟩
  have first : v.conforms (.ofClass c) = true := by
    rw [shape] at conform
    exact (List.forall₂_cons.1 conform).1
  obtain rfl | ⟨type, own, below⟩ := Value.conforms_ref_iff.1 first
  · exact absurd rfl present
  obtain ⟨d, rfl⟩ := RefType.eq_cls_of_isSubtypeOf below
  have given : F.Has d := RefType.over_cls.1 (inFamily _ own)
  obtain ⟨method, reached⟩ := ClassDef.findMethod?_below given has below known
  obtain ⟨declarer, nearest⟩ := ClassDef.findMethod?_eq_some_iff.1 reached
  refine ⟨d, declarer, method, own, below, nearest, fun host n => ?_⟩
  rcases Value.instance_of_refType own with ⟨o, rfl, rfl⟩ | ⟨t, rfl, rfl⟩
  · refine .inl ⟨o, rfl, ?_⟩
    rw [performs.invokeExact conform, Action.perform_virtual reached]
  · refine .inr ⟨t, rfl, fun s => ?_⟩
    subst named
    exact performs.invokeExact_of_error conform (Action.perform_virtual_throwable c name t rest _ s)

namespace ClassDef

/-- A throwable class that declares a method. -/
def fault : ClassDef := declaring "Fault" (some (.cls .runtimeException)) ⟨0, "Fault.name"⟩ false

/-- A class below that declares the method anew. -/
def timeout : ClassDef := declaring "Timeout" (some (.cls fault)) ⟨1, "Timeout.name"⟩ false

/-- A class below that declares nothing. -/
def late : ClassDef := ⟨"Late", some (.cls timeout), false, [], []⟩

/-- The throwable classes with methods, and what they extend. -/
def faults : List ClassDef := [fault, timeout, late, runtimeException]

end ClassDef

/-- The family of these classes. -/
def ClassFamily.faults : ClassFamily where
  Has c := c ∈ ClassDef.faults
  eq_of_name_eq hc hd same := List.inj_on_of_nodup_map
    (by decide : (ClassDef.faults.map ClassDef.name).Nodup) hc hd same
  superclass_over {c r} hc above := by
    simp only [ClassDef.faults, List.mem_cons, List.not_mem_nil, or_false] at hc
    rcases hc with rfl | rfl | rfl | rfl <;> cases above <;> simp [RefType.Over, ClassDef.faults]

/-- A registry of the three classes with methods. -/
def Registry.faults : Registry :=
  ((Registry.empty.registerClass .fault).registerClass .timeout).registerClass .late

/-- The state with this registry alone. -/
def State.faults : State := { State.empty with registries := #[.faults] }

/-- What a lookup finds in this state. -/
theorem Handle.FoundOver.faults {q : MemberQuery} {h : Handle} {t : State}
    (found : (⟨"Main", 0, none, 0⟩ : Lookup).findMember q .faults = (.ok h, t)) :
    h.FoundOver .faults q := by
  refine ⟨_, .faults, _, _, rfl, .cls _ (.cls _ (.cls _ .empty)), ?_, found⟩
  simp [Registry.faults, Registry.registerClass, Registry.empty, ClassFamily.faults,
    ClassDef.faults, ClassDef.fault, ClassDef.timeout, ClassDef.late, ClassDef.declaring]

/-- An object whose class declares nothing runs the body of the class above. -/
theorem Handle.FoundOver.virtual_receivers_inherited :
    ∃ h : Handle, h.FoundOver .faults (.virtual "Fault" "name" ⟨.int, []⟩) ∧
      Conform [.object ⟨0, .late⟩] h.signature.params ∧
      ∃ declarer method, ClassDef.Nearest "name" .late declarer method ∧
        h.invokeExact (runCode .numbering 2) [.object ⟨0, .late⟩] = (do
          let result ← callHost .numbering (runCode .numbering 0) method.function
            [.object ⟨0, .late⟩]
          let result ← Step.checkResult .int result
          return Kind.int.kept result) ∧
        (h.invokeExact (runCode .numbering 2) [.object ⟨0, .late⟩] .faults).1 = .ok (.int 1) := by
  have found : Handle.FoundOver .faults (.virtual "Fault" "name" ⟨.int, []⟩) _ := .faults rfl
  have conform : Conform [.object ⟨0, .late⟩] [.ofClass .fault] := .cons (by decide) .nil
  have given : (Value.object ⟨0, .late⟩).Over ClassFamily.faults.Has := by
    rintro _ ⟨⟩
    simp [RefType.Over, ClassFamily.faults, ClassDef.faults]
  obtain ⟨c, declared, -, -, -, -, receivers⟩ := found.virtual_receivers
  have present : Value.object ⟨0, .late⟩ ≠ .null := by simp
  obtain ⟨d, declarer, method, own, -, nearest, runs⟩ :=
    receivers (.object ⟨0, .late⟩) [] given present conform
  cases own
  obtain ⟨o, -, invoked⟩ | ⟨t, other, -⟩ := runs .numbering 0
  · exact ⟨_, found, conform, declarer, method, nearest, invoked, rfl⟩
  · cases other

/-- A throwable of the same class is refused, although its class has the method. -/
theorem Handle.FoundOver.virtual_receivers_throwable :
    ∃ h method, Handle.FoundOver .faults (.virtual "Fault" "name" ⟨.int, []⟩) h ∧
      Conform [.throwable ⟨0, .late, "over"⟩] h.signature.params ∧
      ClassDef.Nearest "name" .late .timeout method ∧
      h.invokeExact (runCode .numbering 2) [.throwable ⟨0, .late, "over"⟩] .faults =
        (.error (.failed (.classCast "Late" "Fault")), .faults) := by
  have nearest : ClassDef.Nearest "name" .late .timeout
      ⟨⟨.int, []⟩, ⟨1, "Timeout.name"⟩, false⟩ := .inherited rfl rfl (.own rfl)
  exact ⟨_, _, .faults rfl, .cons (by decide) .nil, nearest, rfl⟩

end TypedHandles
