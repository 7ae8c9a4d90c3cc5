import TypedHandles.Proofs.Adapting

/-!
Handles of members: what a lookup returns, from its registry or by its cache, and what an exact
invocation of it does. Such a handle performs one action on its arguments, so an invocation is the
check of the arguments, the action and the check of its result.
-/
namespace TypedHandles

/-- The kind of a field that the class itself declares. -/
def ClassDef.fieldKind? (c : ClassDef) (name : String) : Option Kind :=
  (c.fields.find? (·.1 == name)).map (·.2)

/-! Registries. -/

namespace Registry

/-- The contents that a registry can have: static functions and classes were registered one after
another. -/
inductive Registered : Registry → Prop
  | empty : Registered .empty
  | static {r : Registry} (owner name : String) (member : StaticMember) : Registered r →
      Registered (r.registerStatic owner name member)
  | cls {r : Registry} (c : ClassDef) : Registered r → Registered (r.registerClass c)

variable {r : Registry} {caller owner name : String} {c : ClassDef}

theorem mem_of_class? (found : r.class? name = some c) : (name, c) ∈ r.classes := by
  obtain ⟨before, after, split, -⟩ := List.lookup_eq_some_iff.1 found
  simp [split]

/-- Classes are registered under their own names. -/
theorem Registered.name_of_class? (registered : r.Registered) (found : r.class? name = some c) :
    c.name = name := by
  have keyed : ∀ e ∈ r.classes, e.2.name = e.1 := by
    clear found
    induction registered with
    | empty => exact List.forall_mem_nil _
    | static owner name member _ ih => exact ih
    | cls c _ ih =>
      exact List.forall_mem_cons.2 ⟨rfl, fun e mem => ih e (List.mem_of_mem_filter mem)⟩
  exact keyed (name, c) (mem_of_class? found)

/-- What a registry offers to a caller under a name: the signature of the member's handle and what
the handle does. -/
inductive Offers (r : Registry) (caller owner name : String) :
    MemberKind → Signature → Action → Prop
  | static {member : StaticMember} : r.static? owner name = some member →
      (member.isPrivate = true → caller = owner) →
      Offers r caller owner name .static member.signature (.host member.function)
  | virtual {c : ClassDef} {method : Method} : r.class? owner = some c →
      c.findMethod? name = some method → (method.isPrivate = true → caller = owner) →
      Offers r caller owner name .virtual
        ⟨method.signature.ret, .ofClass c :: method.signature.params⟩ (.virtual c name)
  | getter {c : ClassDef} {kind : Kind} : r.class? owner = some c →
      c.fieldKind? name = some kind →
      Offers r caller owner name .getter ⟨kind, [.ofClass c]⟩ (.getField c name)
  | setter {c : ClassDef} {kind : Kind} : r.class? owner = some c →
      c.fieldKind? name = some kind →
      Offers r caller owner name .setter ⟨.void, [.ofClass c, kind]⟩ (.setField c name)
  | constructor {c : ClassDef} : r.class? owner = some c →
      Offers r caller owner name .constructor ⟨.ofClass c, c.fields.map (·.2)⟩ (.construct c)

namespace Offers

variable {signature : Signature} {action : Action}

theorem static_inv (offers : r.Offers caller owner name .static signature action) :
    ∃ member, r.static? owner name = some member ∧ (member.isPrivate = true → caller = owner) ∧
      action = .host member.function := by
  cases offers with
  | static found granted => exact ⟨_, found, granted, rfl⟩

theorem virtual_inv (offers : r.Offers caller owner name .virtual signature action) :
    ∃ c method, r.class? owner = some c ∧ c.findMethod? name = some method ∧
      (method.isPrivate = true → caller = owner) ∧ action = .virtual c name := by
  cases offers with
  | virtual known found granted => exact ⟨_, _, known, found, granted, rfl⟩

theorem getter_inv (offers : r.Offers caller owner name .getter signature action) :
    ∃ c kind, r.class? owner = some c ∧ c.fieldKind? name = some kind ∧
      signature = ⟨kind, [.ofClass c]⟩ ∧ action = .getField c name := by
  cases offers with
  | getter known declared => exact ⟨_, _, known, declared, rfl, rfl⟩

theorem setter_inv (offers : r.Offers caller owner name .setter signature action) :
    ∃ c kind, r.class? owner = some c ∧ c.fieldKind? name = some kind ∧
      signature = ⟨.void, [.ofClass c, kind]⟩ ∧ action = .setField c name := by
  cases offers with
  | setter known declared => exact ⟨_, _, known, declared, rfl, rfl⟩

theorem constructor_inv (offers : r.Offers caller owner name .constructor signature action) :
    ∃ c, r.class? owner = some c ∧ signature = ⟨.ofClass c, c.fields.map (·.2)⟩ ∧
      action = .construct c := by
  cases offers with
  | constructor known => exact ⟨_, known, rfl, rfl⟩

end Offers

theorem checkAccess_granted (isPrivate : Bool) (caller : String) (request : MemberRequest) :
    Ends (fun _ => True) (fun _ => isPrivate = true → caller = request.owner)
      (checkAccess isPrivate caller request) := by
  unfold checkAccess
  split
  · trivial
  · next granted =>
    intro hidden
    simpa [hidden] using granted

theorem owner_class? (r : Registry) (request : MemberRequest) :
    Ends (fun _ => True) (fun c => r.class? request.owner = some c) (r.owner request) := by
  unfold Registry.owner
  split
  · next found => exact found
  · trivial

theorem field_fieldKind? (c : ClassDef) (request : MemberRequest) :
    Ends (fun _ => True) (fun kind => c.fieldKind? request.name = some kind) (field c request) := by
  unfold field ClassDef.fieldKind?
  split
  · next found =>
    show Option.map _ _ = some _
    rw [found]
    rfl
  · trivial

/-- A resolved member is one that the registry offers. -/
theorem resolve_offers (r : Registry) (caller : String) (request : MemberRequest) :
    Ends (fun _ => True)
      (fun member => r.Offers caller request.owner request.name request.kind member.signature
        member.action) (r.resolve caller request) := by
  have made : ∀ ret params, Ends (fun _ => True) (fun s => s = ⟨ret, params⟩)
      (Signature.make ret params) :=
    fun ret params => Ends.intro (fun _ _ => trivial) fun _ done =>
      ((Signature.make_ends ret params).of_eq_ok done).1
  unfold resolve
  split
  · next kind =>
    split
    · trivial
    · next member found =>
      refine (checkAccess_granted _ _ _).bind fun _ granted => ?_
      rw [kind]
      exact .static found granted
  · next kind =>
    refine (r.owner_class? request).bind fun c here => ?_
    split
    · trivial
    · next method found =>
      refine (checkAccess_granted _ _ _).bind fun _ granted => ?_
      refine (made _ _).bind fun s same => ?_
      subst same
      rw [kind]
      exact .virtual here found granted
  · next kind =>
    refine (r.owner_class? request).bind fun c here => ?_
    refine (field_fieldKind? c request).bind fun _ declared => ?_
    refine (made _ _).bind fun s same => ?_
    subst same
    rw [kind]
    exact .getter here declared
  · next kind =>
    refine (r.owner_class? request).bind fun c here => ?_
    refine (field_fieldKind? c request).bind fun _ declared => ?_
    refine (made _ _).bind fun s same => ?_
    subst same
    rw [kind]
    exact .setter here declared
  · next kind =>
    refine (r.owner_class? request).bind fun c here => ?_
    refine (made _ _).bind fun s same => ?_
    subst same
    rw [kind]
    exact .constructor here

end Registry

/-! Lookups. -/

theorem Checked.ofExcept_eq_ok {α : Type} {x : Except Failure α} {a : α}
    (h : Checked.ofExcept x = .ok a) : x = .ok a := by
  cases x with
  | ok b =>
    cases h
    rfl
  | error failure => cases h

/-- A handle that performs one action on all of its arguments. -/
def Handle.Performs (h : Handle) (action : Action) : Prop :=
  h.program = .single h.signature (.leaf action)

namespace Lookup

variable {l : Lookup} {s t : State} {h : Handle} {r : Registry}

/-- A gate changes nothing but the journal. -/
theorem checkGate_registries (l : Lookup) (request : MemberRequest) (s : State) :
    (l.checkGate request s).2.registries = s.registries := by
  unfold checkGate
  cases l.gate with
  | none => rfl
  | some gate => rfl

/-- What a lookup returns performs an action that the registry offers. -/
theorem offers_of_find {request : MemberRequest}
    (registry : s.registries[l.registry]? = some r) (found : l.find request s = (.ok h, t)) :
    ∃ action, r.Offers l.caller request.owner request.name request.kind h.signature action ∧
      h.Performs action := by
  obtain ⟨_, s', passed, reads⟩ := bind_eq_ok found
  obtain ⟨_, _, read, looks⟩ := bind_eq_ok reads
  obtain ⟨r', _, known, resolves⟩ := bind_eq_ok looks
  obtain ⟨member, u, resolved, makes⟩ := bind_eq_ok resolves
  have offers : r.Offers l.caller request.owner request.name request.kind member.signature
      member.action := by
    have same := l.checkGate_registries request s
    have here : s'.registries[l.registry]? = some r := by
      rw [passed] at same
      rw [same]
      exact registry
    cases read
    rw [here] at known
    cases known
    exact (r.resolve_offers l.caller request).of_eq_ok
      (Checked.ofExcept_eq_ok (congrArg Prod.fst resolved))
  have made : ∀ s t : State, Exec.ofBuild
      (Blueprint.ofAction member.signature member.action).make s = (.ok h, t) →
      ∃ action, r.Offers l.caller request.owner request.name request.kind h.signature action ∧
        h.Performs action := by
    intro s t made
    cases made
    exact ⟨member.action, offers, rfl⟩
  cases wanted : request.signature with
  | none =>
    simp only [wanted] at makes
    exact made _ _ makes
  | some expected =>
    simp only [wanted] at makes
    split at makes
    · cases makes
    · exact made _ _ makes

/-- A query asks for a member of its own name, and finds what the registry offers. -/
theorem offers_of_findMember {q : MemberQuery} (registry : s.registries[l.registry]? = some r)
    (found : l.findMember q s = (.ok h, t)) :
    ∃ action, r.Offers l.caller q.request.owner q.request.name q.request.kind h.signature action ∧
      h.Performs action := by
  obtain ⟨h', s', here, found⟩ := bind_eq_ok found
  dsimp only at found
  split at found
  · cases found
  · cases found
    exact offers_of_find registry here

end Lookup

/-! Caches. -/

/-- The blueprint of a constant, of a value that was fitted to its kind. -/
theorem Blueprint.constant_of_fitted {v : Value} {kind : Kind} (fitted : v.coerce kind = .ok v) :
    Blueprint.constant kind v = .ok ⟨⟨kind, []⟩, .single ⟨kind, []⟩ fun _ => .const v⟩ := by
  have signature : Signature.make kind [] = .ok ⟨kind, []⟩ :=
    Signature.make_eq_ok_iff.2 ⟨rfl, ⟨by simp, by simp⟩⟩
  unfold constant
  rw [fitted, signature]
  rfl

section

variable {cache : Nat} {c c' : SharedHandles} {s : State} {h : Handle} {t : HandleTable}
  {f : SharedHandles → Build (Handle × SharedHandles)}

theorem withCache_of_ok (found : s.caches[cache]? = some c)
    (made : f c s.handles = (.ok (h, c'), t)) : withCache cache f s =
      (.ok h, { s with handles := t, caches := s.caches.setIfInBounds cache c' }) := by
  unfold withCache
  rw [bind_get, found, bind_of_ok (show Exec.ofOption (some c) s = (.ok c, s) from rfl),
    bind_of_ok (Handle.ofBuild_eq made)]
  rfl

theorem withCache_of_error {e : Halt} (found : s.caches[cache]? = some c)
    (failed : f c s.handles = (.error e, t)) :
    withCache cache f s = (.error e, { s with handles := t }) := by
  unfold withCache
  rw [bind_get, found, bind_of_ok (show Exec.ofOption (some c) s = (.ok c, s) from rfl)]
  exact bind_of_error (Handle.ofBuild_eq failed)

end

/-! Invocations. -/

/-- A value of the kind passes through the check of a result. -/
theorem Step.checkResult_of_conforms {kind : Kind} {v : Value} (conforms : v.conforms kind = true) :
    (do
      let w ← checkResult kind v
      return kind.kept w) = (pure v : Exec Value) := by
  unfold checkResult Kind.kept
  cases kind with
  | void =>
    cases v with
    | void => rfl
    | _ => cases conforms
  | prim p | ref t =>
    simp only [conforms, if_true]
    rfl

namespace Handle

variable {h : Handle} {action : Action} {args : List Value}

/-- A call of a handle that performs one action. -/
theorem Performs.call (performs : h.Performs action) (lengths : args.length = h.signature.arity)
    (host : Host) (n : Nat) :
    (runCode host (n + 2)).call h args = (do
      let v ← action.perform (callHost host (runCode host n)) args
      let w ← Step.checkResult h.signature.ret v
      return h.signature.ret.kept w) := by
  show h.program.perform (runCode host (n + 1)) (n + 1) args = _
  rw [performs, Program.single_perform lengths]
  unfold Step.perform
  dsimp only
  rw [Step.gather_all lengths, pure_bind, bind_assoc]
  rfl

/-- An exact invocation of a handle that performs one action. -/
theorem Performs.invokeExact (performs : h.Performs action)
    (conform : Conform args h.signature.params) (host : Host) (n : Nat) :
    h.invokeExact (runCode host (n + 2)) args = (do
      let v ← action.perform (callHost host (runCode host n)) args
      let w ← Step.checkResult h.signature.ret v
      return h.signature.ret.kept w) := by
  rw [invokeExact_of_conform _ conform]
  exact performs.call conform.length_eq host n

/-- The failure of the action is the failure of the invocation. -/
theorem Performs.invokeExact_of_error {host : Host} {n : Nat} {s t : State} {e : Halt}
    (performs : h.Performs action) (conform : Conform args h.signature.params)
    (failed : action.perform (callHost host (runCode host n)) args s = (.error e, t)) :
    h.invokeExact (runCode host (n + 2)) args s = (.error e, t) := by
  rw [performs.invokeExact conform, bind_of_error failed]

/-- What the action yields is the result if it is of the result's kind. -/
theorem Performs.invokeExact_of_ok {host : Host} {n : Nat} {s t : State} {v : Value}
    (performs : h.Performs action) (conform : Conform args h.signature.params)
    (done : action.perform (callHost host (runCode host n)) args s = (.ok v, t))
    (conforms : v.conforms h.signature.ret = true) :
    h.invokeExact (runCode host (n + 2)) args s = (.ok v, t) := by
  rw [performs.invokeExact conform, bind_of_ok done, Step.checkResult_of_conforms conforms]
  rfl

/-- Only the action changes anything. -/
theorem Performs.invokeExact_state (performs : h.Performs action)
    (conform : Conform args h.signature.params) (host : Host) (n : Nat) (s : State) :
    (h.invokeExact (runCode host (n + 2)) args s).2 =
      (action.perform (callHost host (runCode host n)) args s).2 := by
  match done : action.perform (callHost host (runCode host n)) args s with
  | (.error e, t) => rw [performs.invokeExact_of_error conform done]
  | (.ok v, t) =>
    rw [performs.invokeExact conform, bind_of_ok done]
    unfold Step.checkResult
    split
    · rfl
    · split
      · rfl
      · rfl

end Handle

end TypedHandles
