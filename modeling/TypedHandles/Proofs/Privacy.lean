import TypedHandles.Proofs.Members

/-!
Which bodies a found static function or method runs, and on whose behalf. A lookup compares its
caller with the owner that was asked for; the class that declares the body comes in nowhere. The two
may differ: the class that was asked for may inherit the method, and the class of the receiver may
declare it anew.
-/
namespace TypedHandles

/-- What a call of a static function or of a method runs, and who declares it. -/
structure Body where
  declarer : String
  isPrivate : Bool
  function : HostFunction

namespace Body

def ofStatic (owner : String) (member : StaticMember) : Body :=
  ⟨owner, member.isPrivate, member.function⟩

def ofMethod (declarer : String) (method : Method) : Body :=
  ⟨declarer, method.isPrivate, method.function⟩

end Body

namespace ClassDef

/-- The body that a method has in a class: the one of the nearest class above that declares it. -/
def body? : ClassDef → String → Option Body
  | ⟨className, superclass, _, _, methods⟩, name =>
    match methods.lookup name with
    | some method => some (.ofMethod className method)
    | none =>
      match superclass with
      | some (.cls parent) => parent.body? name
      | _ => none
termination_by structural c => c

variable {c : ClassDef} {name : String} {method : Method}

theorem body?_of_declared (declared : c.methods.lookup name = some method) :
    c.body? name = some (.ofMethod c.name method) := by
  obtain ⟨_, _, _, _, _⟩ := c
  unfold body?
  rw [declared]

/-- The body of a method is the one that is found along the chain of classes. -/
theorem body?_spec (c : ClassDef) (name : String) :
    (c.findMethod? name = none ∧ c.body? name = none) ∨
      ∃ declarer method, c.findMethod? name = some method ∧
        c.body? name = some (.ofMethod declarer method) := by
  obtain ⟨className, superclass, _, _, methods⟩ := c
  unfold findMethod? body?
  cases methods.lookup name with
  | some method => exact .inr ⟨className, method, rfl, rfl⟩
  | none =>
    cases superclass with
    | none => exact .inl ⟨rfl, rfl⟩
    | some extended =>
      cases extended with
      | cls parent => exact parent.body?_spec name
      | _ => exact .inl ⟨rfl, rfl⟩
termination_by structural c

theorem body?_of_findMethod? (found : c.findMethod? name = some method) :
    ∃ declarer, c.body? name = some (.ofMethod declarer method) := by
  rcases c.body?_spec name with ⟨missing, -⟩ | ⟨declarer, other, here, body⟩
  · rw [found] at missing
    cases missing
  · rw [found] at here
    cases here
    exact ⟨declarer, body⟩

end ClassDef

namespace Action

variable {c : ClassDef} {o : ObjectRef} {name : String} {rest : List Value}

/-- A method is found anew in the class of the receiver. -/
theorem perform_virtual {method : Method} (found : o.cls.findMethod? name = some method)
    (native : HostFunction → List Value → Exec Value) :
    (virtual c name).perform native (.object o :: rest) =
      native method.function (.object o :: rest) := by
  unfold perform
  simp only [receiver, pure_bind, found]

theorem perform_virtual_missing (missing : o.cls.findMethod? name = none)
    (native : HostFunction → List Value → Exec Value) :
    (virtual c name).perform native (.object o :: rest) = Exec.refuse (noMember o name) := by
  unfold perform
  simp only [receiver, pure_bind, missing]

end Action

namespace Registry

variable {r : Registry} {caller owner name : String} {signature : Signature} {action : Action}

/-- The body that a call of a found member runs. A static function has one; a method has the one
of the receiver's class. -/
def dispatch? (r : Registry) (args : List Value) : MemberQuery → Option Body
  | .static owner name _ => (r.static? owner name).map (.ofStatic owner)
  | .virtual _ name _ =>
    match args with
    | .object o :: _ => o.cls.body? name
    | _ => none
  | .getter .. | .setter .. | .constructor .. => none

/-- The ways around privacy. -/
inductive Escapes (r : Registry) (caller : String) : MemberQuery → List Value → Body → Prop
  /-- The caller carries the name of a class that inherits a private method, and asks for the method
  of that class. -/
  | inherited {owner name : String} {wanted : Signature} {c : ClassDef} {o : ObjectRef}
      {rest : List Value} {body : Body} : r.class? owner = some c → caller = owner →
      c.methods.lookup name = none → c.body? name = some body → o.cls.body? name = some body →
      body.isPrivate = true → body.declarer ≠ caller →
      Escapes r caller (.virtual owner name wanted) (.object o :: rest) body
  /-- The receiver's class has another body, which is private, than the one that the caller was
  granted. -/
  | redeclared {owner name : String} {wanted : Signature} {c : ClassDef} {o : ObjectRef}
      {rest : List Value} {granted body : Body} : r.class? owner = some c →
      c.body? name = some granted → o.cls.body? name = some body → body ≠ granted →
      body.isPrivate = true → body.declarer ≠ caller →
      Escapes r caller (.virtual owner name wanted) (.object o :: rest) body

/-- A call of a found static function or method runs the body that it has on the arguments. -/
theorem Offers.perform_of_dispatch? {q : MemberQuery} {args : List Value} {body : Body}
    (offers : r.Offers caller q.request.owner q.request.name q.request.kind signature action)
    (dispatched : r.dispatch? args q = some body)
    (native : HostFunction → List Value → Exec Value) :
    action.perform native args = native body.function args := by
  cases q with
  | static owner name wanted =>
    obtain ⟨member, found, -, rfl⟩ := offers.static_inv
    obtain ⟨other, here, rfl⟩ := Option.map_eq_some_iff.1 dispatched
    cases here.symm.trans found
    rfl
  | virtual owner name wanted =>
    obtain ⟨c, -, -, -, -, rfl⟩ := offers.virtual_inv
    match args with
    | .object o :: rest =>
      rcases o.cls.body?_spec name with ⟨-, missing⟩ | ⟨declarer, method, found, here⟩
      · cases missing.symm.trans dispatched
      · cases here.symm.trans dispatched
        exact Action.perform_virtual found native
  | getter | setter | constructor => cases dispatched

/-- Without a body there is nothing that could run. -/
theorem Offers.perform_of_not_dispatch? {q : MemberQuery} {args : List Value}
    (kind : q.request.kind = .static ∨ q.request.kind = .virtual)
    (offers : r.Offers caller q.request.owner q.request.name q.request.kind signature action)
    (missing : r.dispatch? args q = none) (native : HostFunction → List Value → Exec Value)
    (u : State) : ∃ failure u', action.perform native args u = (.error (.failed failure), u') ∧
      u'.journal = u.journal := by
  cases q with
  | static owner name wanted =>
    obtain ⟨member, found, -, rfl⟩ := offers.static_inv
    cases (Option.map_eq_none_iff.1 missing).symm.trans found
  | virtual owner name wanted =>
    obtain ⟨c, -, -, -, -, rfl⟩ := offers.virtual_inv
    match args with
    | .object o :: rest =>
      rcases o.cls.body?_spec name with ⟨lacking, -⟩ | ⟨declarer, method, -, here⟩
      · exact ⟨_, u, congrFun (Action.perform_virtual_missing lacking native) u, rfl⟩
      · cases here.symm.trans missing
    | [] | .null :: _ | .void :: _ | .bool _ :: _ | .byte _ :: _ | .short _ :: _ | .char _ :: _
    | .int _ :: _ | .long _ :: _ | .float _ :: _ | .double _ :: _ | .str _ :: _ | .array .. :: _
    | .throwable _ :: _ | .handle _ :: _ | .signature _ :: _ | .callSite _ :: _ =>
      exact ⟨_, _, rfl, rfl⟩
  | getter | setter | constructor => rcases kind with kind | kind <;> cases kind

/-- A private body of another class or owner than the caller's is reached in two ways only. -/
theorem Offers.escapes_iff {q : MemberQuery} {args : List Value} {body : Body}
    (registered : r.Registered)
    (offers : r.Offers caller q.request.owner q.request.name q.request.kind signature action)
    (dispatched : r.dispatch? args q = some body) :
    r.Escapes caller q args body ↔ body.isPrivate = true ∧ body.declarer ≠ caller := by
  constructor
  · rintro (⟨_, _, _, _, _, hidden, foreign⟩ | ⟨_, _, _, _, hidden, foreign⟩) <;>
      exact ⟨hidden, foreign⟩
  rintro ⟨hidden, foreign⟩
  cases q with
  | static owner name wanted =>
    obtain ⟨member, found, granted, -⟩ := offers.static_inv
    obtain ⟨other, here, rfl⟩ := Option.map_eq_some_iff.1 dispatched
    cases here.symm.trans found
    exact absurd (granted hidden).symm foreign
  | virtual owner name wanted =>
    obtain ⟨c, method, known, found, granted, -⟩ := offers.virtual_inv
    obtain ⟨declarer, asked⟩ := ClassDef.body?_of_findMethod? found
    match args with
    | .object o :: rest =>
      by_cases same : body = .ofMethod declarer method
      · subst same
        have opened : caller = owner := granted hidden
        refine .inherited known opened ?_ asked dispatched hidden foreign
        -- Had the class declared the method itself, the body would be the caller's own.
        cases declared : c.methods.lookup name with
        | none => rfl
        | some own =>
          have one := Option.some.inj (asked.symm.trans (ClassDef.body?_of_declared declared))
          have own : declarer = c.name := congrArg Body.declarer one
          exact absurd ((own.trans (registered.name_of_class? known)).trans opened.symm) foreign
      · exact .redeclared known asked dispatched same hidden foreign
  | getter | setter | constructor => cases dispatched

end Registry

/-- What exact invocations of a found static function or method do: on arguments that have a body
they run this body and nothing else, and on others they fail and run nothing. The body is the
caller's own if it is private, but for the two ways around privacy. -/
theorem Lookup.findMember_privacy {l : Lookup} {q : MemberQuery} {s t : State} {h : Handle}
    {r : Registry} (registry : s.registries[l.registry]? = some r) (registered : r.Registered)
    (kind : q.request.kind = .static ∨ q.request.kind = .virtual)
    (found : l.findMember q s = (.ok h, t)) (host : Host) (n : Nat) (args : List Value) :
    (∀ body, Conform args h.signature.params → r.dispatch? args q = some body →
      h.invokeExact (runCode host (n + 2)) args = (do
        let v ← callHost host (runCode host n) body.function args
        let w ← Step.checkResult h.signature.ret v
        return h.signature.ret.kept w) ∧
      (body.isPrivate = true ∧ body.declarer ≠ l.caller ↔ r.Escapes l.caller q args body)) ∧
    (¬ Conform args h.signature.params ∨ r.dispatch? args q = none → ∀ u, ∃ failure u',
      h.invokeExact (runCode host (n + 2)) args u = (.error (.failed failure), u') ∧
        u'.journal = u.journal) := by
  obtain ⟨action, offers, performs⟩ := Lookup.offers_of_findMember registry found
  constructor
  · intro body conform dispatched
    constructor
    · rw [performs.invokeExact conform, offers.perform_of_dispatch? dispatched]
    · exact (offers.escapes_iff registered dispatched).symm
  · intro nothing u
    by_cases conform : Conform args h.signature.params
    · have missing := nothing.resolve_left (not_not_intro conform)
      obtain ⟨failure, u', fails, same⟩ :=
        offers.perform_of_not_dispatch? kind missing (callHost host (runCode host n)) u
      refine ⟨failure, u', ?_, same⟩
      rw [performs.invokeExact conform, bind_of_error fails]
    · obtain ⟨failure, -, refused⟩ := Handle.invokeExact_of_not_conform conform
        (runCode host (n + 2))
      exact ⟨failure, u, refused u, rfl⟩

/-- A class with one method, which takes nothing and returns a number. -/
def ClassDef.declaring (name : String) (superclass : Option RefType) (function : HostFunction)
    (isPrivate : Bool) : ClassDef :=
  ⟨name, superclass, false, [], [("name", ⟨⟨.int, []⟩, function, isPrivate⟩)]⟩

namespace ClassDef

/-- A class with a method that all may call. -/
def shown : ClassDef := declaring "Shown" none ⟨0, "Shown.name"⟩ false

/-- A class below that declares the method as its own. -/
def hidden : ClassDef := declaring "Hidden" (some (.cls shown)) ⟨1, "Hidden.name"⟩ true

/-- A class below that declares nothing. -/
def heir : ClassDef := ⟨"Heir", some (.cls hidden), false, [], []⟩

end ClassDef

/-- A registry of the three classes. -/
def Registry.ofThree : Registry :=
  ((Registry.empty.registerClass .shown).registerClass .hidden).registerClass .heir

theorem Registry.ofThree_registered : ofThree.Registered := .cls _ (.cls _ (.cls _ .empty))

/-- The state with this registry alone. -/
def State.ofThree : State := { State.empty with registries := #[.ofThree] }

/-- A host whose functions return their number. -/
def Host.numbering : Host := fun f _ => .value (.int (.ofNat f.id))

/-- A class calls its own private method on an object of a class below. -/
theorem Lookup.findMember_privacy_ownMethod :
    let l : Lookup := ⟨"Hidden", 0, none, 0⟩
    let q : MemberQuery := .virtual "Hidden" "name" ⟨.int, []⟩
    let args : List Value := [.object ⟨0, .heir⟩]
    ∃ h t, l.findMember q .ofThree = (.ok h, t) ∧ Conform args h.signature.params ∧
      h.invokeExact (runCode .numbering 2) args = (do
        let v ← callHost .numbering (runCode .numbering 0) ⟨1, "Hidden.name"⟩ args
        let w ← Step.checkResult .int v
        return Kind.int.kept w) ∧
      (h.invokeExact (runCode .numbering 2) args t).1 = .ok (.int 1) ∧
      ¬ Registry.ofThree.Escapes "Hidden" q args ⟨"Hidden", true, ⟨1, "Hidden.name"⟩⟩ := by
  intro l q args
  have conform : Conform args [.ofClass .hidden] := .cons (by decide) .nil
  obtain ⟨runs, -⟩ := @Lookup.findMember_privacy l q .ofThree _ _ .ofThree rfl
    Registry.ofThree_registered (.inr rfl) rfl .numbering 0 args
  obtain ⟨invoked, escapes⟩ := runs ⟨"Hidden", true, ⟨1, "Hidden.name"⟩⟩ conform rfl
  refine ⟨_, _, rfl, conform, invoked, rfl, fun escaped => ?_⟩
  exact (escapes.2 escaped).2 rfl

/-- Whether an exact invocation of what a query finds runs a private body of another class or owner
than the caller. -/
def Lookup.RunsForeign (l : Lookup) (q : MemberQuery) (s : State) (args : List Value) : Prop :=
  ∃ h t r body, l.findMember q s = (.ok h, t) ∧ s.registries[l.registry]? = some r ∧
    Conform args h.signature.params ∧ r.dispatch? args q = some body ∧ body.isPrivate = true ∧
    body.declarer ≠ l.caller ∧
    .native body.function args ∈ (h.invokeExact (runCode .numbering 2) args t).2.journal

/-- A class reaches the private method that it inherits, and anyone reaches a private method below
a public one. -/
theorem Lookup.findMember_privacy_escaped :
    Lookup.RunsForeign ⟨"Heir", 0, none, 0⟩ (.virtual "Heir" "name" ⟨.int, []⟩) .ofThree
      [.object ⟨0, .heir⟩] ∧
    Lookup.RunsForeign ⟨"Main", 0, none, 0⟩ (.virtual "Shown" "name" ⟨.int, []⟩) .ofThree
      [.object ⟨0, .hidden⟩] := by
  constructor
  · refine ⟨_, _, _, _, rfl, rfl, ?_, rfl, rfl, ?_, ?_⟩
    · exact .cons (by decide) .nil
    · decide
    · exact .tail _ (.head _)
  · refine ⟨_, _, _, _, rfl, rfl, ?_, rfl, rfl, ?_, ?_⟩
    · exact .cons (by decide) .nil
    · decide
    · exact .tail _ (.head _)

end TypedHandles
