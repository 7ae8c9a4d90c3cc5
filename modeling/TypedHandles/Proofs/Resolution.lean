import TypedHandles.Proofs.Members

/-!
Lookups against a registry. A lookup asks its gate before anything is resolved and resolves against
what was registered last under a name. It hands out a member only at the signature that was asked
for (`Lookup.findMember_resolves`).
-/
namespace TypedHandles

/-! What was registered. -/

/-- A registration: of a static function, or of a class under its own name. -/
inductive Registration where
  | static (owner name : String) (member : StaticMember)
  | cls (c : ClassDef)

namespace Registration

/-- The static function that was registered last under an owner and a name; the latest registration
stands first. -/
def static? (log : List Registration) (owner name : String) : Option StaticMember :=
  log.findSome? fun
    | .static o n member => if (owner, name) == (o, n) then some member else none
    | .cls _ => none

/-- The class that was registered last under a name. -/
def class? (log : List Registration) (name : String) : Option ClassDef :=
  log.findSome? fun
    | .static .. => none
    | .cls c => if name == c.name then some c else none

theorem name_of_class? {log : List Registration} {name : String} {c : ClassDef}
    (found : class? log name = some c) : c.name = name := by
  obtain ⟨registration, -, known⟩ := List.exists_of_findSome?_eq_some found
  cases registration with
  | static => cases known
  | cls d =>
    dsimp only at known
    split at known
    · next same =>
      cases known
      exact (eq_of_beq same).symm
    · cases known

end Registration

/-- An entry that is put in place of another one is found under its own key, and all others are
found as before. -/
theorem lookup_replaced {α β : Type} [BEq α] [LawfulBEq α] (k : α) (v : β) (entries : List (α × β))
    (wanted : α) : ((k, v) :: entries.filter (·.1 != k)).lookup wanted =
      if wanted == k then some v else entries.lookup wanted := by
  rw [List.lookup_cons]
  cases same : wanted == k with
  | true => rfl
  | false =>
    induction entries with
    | nil => rfl
    | cons e entries ih =>
      obtain ⟨key, value⟩ := e
      cases old : key == k with
      | true =>
        have other : (wanted == key) = false := eq_of_beq old ▸ same
        rw [List.filter_cons_of_neg (by simp [bne, old]), List.lookup_cons, other]
        exact ih
      | false =>
        rw [List.filter_cons_of_pos (by simp [bne, old]), List.lookup_cons, List.lookup_cons]
        cases wanted == key with
        | true => rfl
        | false => exact ih

namespace Registry

/-- A registry finds what was registered last. -/
structure Shows (r : Registry) (log : List Registration) : Prop where
  static? : ∀ owner name, r.static? owner name = Registration.static? log owner name
  class? : ∀ name, r.class? name = Registration.class? log name

variable {r : Registry} {log : List Registration}

theorem shows_empty : Registry.empty.Shows [] := ⟨fun _ _ => rfl, fun _ => rfl⟩

theorem Shows.registerStatic (shows : r.Shows log) (owner name : String) (member : StaticMember) :
    (r.registerStatic owner name member).Shows (.static owner name member :: log) := by
  refine ⟨fun o n => ?_, shows.class?⟩
  have before := shows.static? o n
  unfold Registry.static? at before ⊢
  unfold Registry.registerStatic Registration.static?
  rw [lookup_replaced, before, List.findSome?_cons]
  dsimp only
  split
  · rfl
  · rfl

theorem Shows.registerClass (shows : r.Shows log) (c : ClassDef) :
    (r.registerClass c).Shows (.cls c :: log) := by
  refine ⟨shows.static?, fun n => ?_⟩
  have before := shows.class? n
  unfold Registry.class? at before ⊢
  unfold Registry.registerClass Registration.class?
  rw [lookup_replaced, before, List.findSome?_cons]
  dsimp only
  split
  · rfl
  · rfl

end Registry

/-- What is registered with one registry. Anything else may happen in between. -/
inductive RegistryHistory (registry : Nat) : List Registration → State → Prop
  | start {s : State} : s.registries[registry]? = some .empty → RegistryHistory registry [] s
  | static {log : List Registration} {s s' : State} {owner name : String} {member : StaticMember} :
      RegistryHistory registry log s →
      registerStatic registry owner name member s = (.ok (), s') →
      RegistryHistory registry (.static owner name member :: log) s'
  | cls {log : List Registration} {s s' : State} {c : ClassDef} : RegistryHistory registry log s →
      registerClass registry c s = (.ok (), s') → RegistryHistory registry (.cls c :: log) s'
  | elsewhere {log : List Registration} {s s' : State} : RegistryHistory registry log s →
      s'.registries[registry]? = s.registries[registry]? → RegistryHistory registry log s'

/-- At every time the registry finds what was registered last. -/
theorem RegistryHistory.shows {registry : Nat} {log : List Registration} {s : State}
    (history : RegistryHistory registry log s) :
    ∃ r, s.registries[registry]? = some r ∧ r.Shows log := by
  induction history with
  | start found => exact ⟨_, found, Registry.shows_empty⟩
  | @static _ _ _ owner name member _ done ih =>
    obtain ⟨r, found, shows⟩ := ih
    cases done
    exact ⟨_, by simp [Array.getElem?_modify, found], shows.registerStatic owner name member⟩
  | @cls _ _ _ c _ done ih =>
    obtain ⟨r, found, shows⟩ := ih
    cases done
    exact ⟨_, by simp [Array.getElem?_modify, found], shows.registerClass c⟩
  | elsewhere _ same ih =>
    obtain ⟨r, found, shows⟩ := ih
    exact ⟨r, same.trans found, shows⟩

/-! Members of what was registered. -/

namespace MemberQuery

/-- The member that a class has for a query. -/
def memberOf? (c : ClassDef) : MemberQuery → Option FoundMember
  | .static .. => none
  | .virtual _ name _ => (c.findMethod? name).map fun method =>
    ⟨⟨method.signature.ret, .ofClass c :: method.signature.params⟩, .virtual c name⟩
  | .getter _ name _ => (c.fieldKind? name).map fun kind =>
    ⟨⟨kind, [.ofClass c]⟩, .getField c name⟩
  | .setter _ name _ => (c.fieldKind? name).map fun kind =>
    ⟨⟨.void, [.ofClass c, kind]⟩, .setField c name⟩
  | .constructor .. => some ⟨⟨.ofClass c, c.fields.map (·.2)⟩, .construct c⟩

/-- The member that was registered for a query, whether or not it has the wanted shape. -/
def registered? (q : MemberQuery) (log : List Registration) : Option FoundMember :=
  match q with
  | .static owner name _ => (Registration.static? log owner name).map fun member =>
    ⟨member.signature, .host member.function⟩
  | .virtual owner .. | .getter owner .. | .setter owner .. | .constructor owner _ =>
    (Registration.class? log owner).bind (memberOf? · q)

/-- The signature that a query wants of a member of a class: the receiver comes first. -/
def shape (c : ClassDef) : MemberQuery → Signature
  | .static _ _ signature => signature
  | .virtual _ _ signature => ⟨signature.ret, .ofClass c :: signature.params⟩
  | .getter _ _ kind => ⟨kind, [.ofClass c]⟩
  | .setter _ _ kind => ⟨.void, [.ofClass c, kind]⟩
  | .constructor _ params => ⟨.ofClass c, params⟩

end MemberQuery

namespace Lookup

/-! Gates. -/

/-- The gate, if there is one, lets a request pass. -/
def Passes (l : Lookup) (request : MemberRequest) : Prop :=
  ∀ gate, l.gate = some gate → gate l.caller request = .ok ()

/-- The state after the gate was asked, if there is one. -/
def asked (l : Lookup) (request : MemberRequest) (s : State) : State :=
  match l.gate with
  | some _ => { s with journal := .gate l.caller request :: s.journal }
  | none => s

variable {l : Lookup} {s t : State} {r : Registry} {q : MemberQuery} {request : MemberRequest}
  {gate : Gate} {failure : Failure} {h : Handle} {log : List Registration}

theorem checkGate_of_passes (passes : l.Passes request) :
    l.checkGate request s = (.ok (), l.asked request s) := by
  unfold checkGate asked
  cases gated : l.gate with
  | none => rfl
  | some gate =>
    dsimp only
    rw [bind_of_ok (show Exec.record _ s = (.ok (), _) from rfl), passes gate gated]
    rfl

theorem checkGate_of_refused (gated : l.gate = some gate)
    (refused : gate l.caller request = .error failure) :
    l.checkGate request s = (.error (.failed failure), l.asked request s) := by
  unfold checkGate asked
  rw [gated]
  dsimp only
  rw [bind_of_ok (show Exec.record _ s = (.ok (), _) from rfl), refused]
  rfl

/-- The registry does not know of the gate. -/
theorem registries_asked : (l.asked request s).registries = s.registries := by
  unfold asked
  cases l.gate with
  | none | some => rfl

/-- Nothing is resolved for a request that the gate refuses. -/
theorem findMember_of_refused (gated : l.gate = some gate)
    (refused : gate l.caller q.request = .error failure) :
    l.findMember q s = (.error (.failed failure), l.asked q.request s) :=
  bind_of_error (bind_of_error (checkGate_of_refused gated refused))

/-- Past the gate a lookup goes on as one without a gate. -/
theorem findMember_of_passes (passes : l.Passes q.request) :
    l.findMember q s =
      ({ l with gate := none } : Lookup).findMember q (l.asked q.request s) := by
  have passes' : ({ l with gate := none } : Lookup).Passes q.request := nofun
  have same : l.find q.request s =
      ({ l with gate := none } : Lookup).find q.request (l.asked q.request s) := by
    unfold find
    rw [bind_of_ok (checkGate_of_passes passes), bind_of_ok (checkGate_of_passes passes')]
    rfl
  unfold findMember
  match outcome : l.find q.request s with
  | (.ok h, t) => rw [bind_of_ok outcome, bind_of_ok (same.symm.trans outcome)]
  | (.error e, t) => rw [bind_of_error outcome, bind_of_error (same.symm.trans outcome)]

/-! What is found. -/

/-- What is resolved for a request, at the signature that it asks for, if it asks for one. -/
def resolved (r : Registry) (caller : String) (request : MemberRequest) :
    Except Failure FoundMember := do
  let member ← r.resolve caller request
  match request.signature with
  | some expected =>
    if member.signature == expected then return member
    else throw (.noSuchMember request.owner (request.name ++ expected.descriptor))
  | none => return member

/-- Past the gate a handle is made of what is resolved. -/
theorem find_eq (passes : l.Passes request) (registry : s.registries[l.registry]? = some r) :
    l.find request s = (do
      let member ← Exec.ofExcept (resolved r l.caller request)
      Exec.ofBuild (Blueprint.ofAction member.signature member.action).make)
        (l.asked request s) := by
  have registry : (l.asked request s).registries[l.registry]? = some r := by
    rwa [registries_asked]
  unfold find resolved
  rw [bind_of_ok (checkGate_of_passes passes), bind_get, registry,
    bind_of_ok (show Exec.ofOption (some r) (l.asked request s) = (.ok r, _) from rfl)]
  cases r.resolve l.caller request with
  | error failure => rfl
  | ok member =>
    rw [bind_of_ok (show Exec.ofExcept (.ok member) (l.asked request s) = (.ok member, _) from rfl)]
    cases request.signature with
    | none => rfl
    | some expected =>
      show _ = (Exec.ofExcept (if (member.signature == expected) = true then .ok member
        else .error (.noSuchMember request.owner (request.name ++ expected.descriptor))) >>= _) _
      cases same : member.signature == expected with
      | true =>
        simp only [bne, same]
        rfl
      | false =>
        simp only [bne, same]
        rfl

theorem find_of_resolved {member : FoundMember} (passes : l.Passes request)
    (registry : s.registries[l.registry]? = some r)
    (done : resolved r l.caller request = .ok member) :
    ∃ h handles, l.find request s =
        (.ok h, { l.asked request s with handles := handles }) ∧
      h.signature = member.signature ∧ h.Performs member.action := by
  rw [find_eq passes registry, done]
  exact ⟨_, _, rfl, rfl, rfl⟩

theorem find_of_unresolved (passes : l.Passes request)
    (registry : s.registries[l.registry]? = some r)
    (failed : resolved r l.caller request = .error failure) :
    l.find request s = (.error (.failed failure), l.asked request s) := by
  rw [find_eq passes registry, failed]
  rfl

/-- What a query finds is of the shape that it asks for. -/
theorem accepts_of_findMember (found : l.findMember q s = (.ok h, t)) :
    q.accepts h.signature = true ∧ ∃ u, l.find q.request s = (.ok h, u) := by
  obtain ⟨h', s', here, found⟩ := bind_eq_ok found
  dsimp only at found
  split at found
  · cases found
  · next accepted =>
    cases found
    exact ⟨by simpa using accepted, _, here⟩

/-- Only handles change past the gate. -/
theorem findMember_state (passes : l.Passes q.request)
    (registry : s.registries[l.registry]? = some r) :
    ∃ handles, (l.findMember q s).2 = { l.asked q.request s with handles := handles } := by
  unfold findMember
  cases done : resolved r l.caller q.request with
  | error failure =>
    rw [bind_of_error (find_of_unresolved passes registry done)]
    exact ⟨_, rfl⟩
  | ok member =>
    obtain ⟨h, handles, found, -⟩ := find_of_resolved passes registry done
    rw [bind_of_ok found]
    dsimp only
    split
    · exact ⟨handles, rfl⟩
    · exact ⟨handles, rfl⟩

end Lookup

/-! What is resolved. -/

namespace Registry

variable {r : Registry} {log : List Registration} {q : MemberQuery} {caller : String}

theorem owner_of_some {request : MemberRequest} {c : ClassDef}
    (known : r.class? request.owner = some c) : r.owner request = .ok c := by
  unfold Registry.owner
  rw [known]

theorem owner_of_none {request : MemberRequest} (absent : r.class? request.owner = none) :
    r.owner request = .error request.missing := by
  unfold Registry.owner
  rw [absent]

theorem field_of_none {request : MemberRequest} {c : ClassDef}
    (absent : c.fieldKind? request.name = none) : field c request = .error request.missing := by
  unfold field
  rw [Option.map_eq_none_iff.1 absent]

/-- No member is resolved of a class that is not there. -/
theorem resolve_of_no_class (member : q.request.kind ≠ .static)
    (absent : r.class? q.request.owner = none) :
    r.resolve caller q.request = .error q.request.missing := by
  unfold resolve
  rw [owner_of_none absent]
  cases q with
  | static => exact absurd rfl member
  | virtual | getter | setter | constructor => rfl

/-- No member is resolved that the class does not have. -/
theorem resolve_of_no_member {c : ClassDef} (member : q.request.kind ≠ .static)
    (known : r.class? q.request.owner = some c) (lacks : q.memberOf? c = none) :
    r.resolve caller q.request = .error q.request.missing := by
  unfold resolve
  rw [owner_of_some known]
  cases q with
  | static => exact absurd rfl member
  | virtual owner name signature =>
    have lacks : c.findMethod? name = none := Option.map_eq_none_iff.1 lacks
    dsimp only [MemberQuery.request, bind, Except.bind]
    rw [lacks]
    rfl
  | getter owner name kind | setter owner name kind =>
    have lacks : c.fieldKind? name = none := Option.map_eq_none_iff.1 lacks
    show (field c _ >>= _) = _
    rw [field_of_none lacks]
    rfl
  | constructor => cases lacks

/-- Nothing is resolved for what was not registered. -/
theorem resolve_of_missing (shows : r.Shows log) (missing : q.registered? log = none) :
    r.resolve caller q.request = .error q.request.missing := by
  cases q with
  | static owner name signature =>
    have absent : r.static? owner name = none :=
      (shows.static? owner name).trans (Option.map_eq_none_iff.1 missing)
    unfold resolve
    simp only [MemberQuery.request, absent]
    rfl
  | virtual owner | getter owner | setter owner | constructor owner =>
    unfold MemberQuery.registered? at missing
    dsimp only at missing
    rw [← shows.class?] at missing
    cases known : r.class? owner with
    | none => exact resolve_of_no_class nofun known
    | some c =>
      rw [known] at missing
      exact resolve_of_no_member nofun known missing

/-- A static function is resolved where its caller may use it. -/
theorem resolve_static {owner name : String} {signature : Signature} {member : StaticMember}
    (found : r.static? owner name = some member)
    (granted : member.isPrivate = true → caller = owner) :
    r.resolve caller (MemberQuery.static owner name signature).request =
      .ok ⟨member.signature, .host member.function⟩ := by
  have access : checkAccess member.isPrivate caller
      (MemberQuery.static owner name signature).request = .ok () := by
    refine if_neg fun denied => ?_
    obtain ⟨hidden, foreign⟩ := Bool.and_eq_true_iff.1 denied
    exact (bne_iff_ne.1 foreign) (granted hidden)
  unfold resolve
  simp only [MemberQuery.request] at access ⊢
  simp only [found, access]
  rfl

/-- What a registry offers for a query is what was registered for it. -/
theorem Offers.registered? {signature : Signature} {action : Action} (shows : r.Shows log)
    (offers : r.Offers caller q.request.owner q.request.name q.request.kind signature action) :
    q.registered? log = some ⟨signature, action⟩ := by
  have ofClass : ∀ c, r.class? q.request.owner = some c → q.request.kind ≠ .static →
      q.registered? log = q.memberOf? c := by
    intro c known other
    rw [shows.class?] at known
    cases q with
    | static => exact absurd rfl other
    | virtual owner | getter owner | setter owner | constructor owner =>
      show (Registration.class? log owner).bind _ = _
      rw [show Registration.class? log owner = some c from known, Option.bind_some]
  cases q with
  | static owner name =>
    cases offers with
    | static found =>
      rw [shows.static?] at found
      exact congrArg (Option.map _) found
  | virtual owner name =>
    cases offers with
    | virtual known found =>
      exact (ofClass _ known nofun).trans (congrArg (Option.map _) found)
  | getter owner name =>
    cases offers with
    | getter known declared =>
      exact (ofClass _ known nofun).trans (congrArg (Option.map _) declared)
  | setter owner name =>
    cases offers with
    | setter known declared =>
      exact (ofClass _ known nofun).trans (congrArg (Option.map _) declared)
  | constructor owner =>
    cases offers with
    | constructor known => exact ofClass _ known nofun

end Registry

/-- A member of a class that a query accepts has the shape that the query asks for. -/
theorem MemberQuery.shape_of_accepts {q : MemberQuery} {c : ClassDef} {m : FoundMember}
    (member : q.memberOf? c = some m) (accepted : q.accepts m.signature = true) :
    (m.signature == q.shape c) = true := by
  refine Signature.beq_iff_parts.2 ?_
  cases q with
  | static => cases member
  | virtual owner name signature =>
    obtain ⟨method, -, rfl⟩ := Option.map_eq_some_iff.1 member
    obtain ⟨params, ret⟩ := Bool.and_eq_true_iff.1 accepted
    exact ⟨ret, Bool.and_eq_true_iff.2 ⟨BEq.rfl, params⟩⟩
  | getter owner name kind =>
    obtain ⟨own, -, rfl⟩ := Option.map_eq_some_iff.1 member
    exact ⟨accepted, BEq.rfl⟩
  | setter owner name kind =>
    obtain ⟨own, -, rfl⟩ := Option.map_eq_some_iff.1 member
    have accepted : (own == kind) = true := accepted
    exact ⟨BEq.rfl, beq_of_forall₂ (.cons BEq.rfl (.cons accepted .nil))⟩
  | constructor owner params =>
    cases member
    exact ⟨BEq.rfl, accepted⟩

namespace Lookup

variable {l : Lookup} {s t : State} {r : Registry} {q : MemberQuery} {request : MemberRequest}
  {h : Handle} {log : List Registration}

/-- What is found is of the signature that the request asks for, if it asks for one. -/
theorem signature_of_find {expected : Signature} (wanted : request.signature = some expected)
    (found : l.find request s = (.ok h, t)) : (h.signature == expected) = true := by
  obtain ⟨_, s', -, reads⟩ := bind_eq_ok found
  obtain ⟨_, _, -, looks⟩ := bind_eq_ok reads
  obtain ⟨r', _, -, resolves⟩ := bind_eq_ok looks
  obtain ⟨member, u, -, makes⟩ := bind_eq_ok resolves
  simp only [wanted] at makes
  split at makes
  · cases makes
  · next same =>
    cases makes
    simpa [bne, Blueprint.ofAction] using same

/-- What was not registered is reported as missing. -/
theorem findMember_of_missing (passes : l.Passes q.request)
    (registry : s.registries[l.registry]? = some r) (shows : r.Shows log)
    (missing : q.registered? log = none) :
    l.findMember q s = (.error (.failed q.request.missing), l.asked q.request s) := by
  refine bind_of_error (find_of_unresolved passes registry ?_)
  unfold resolved
  rw [Registry.resolve_of_missing shows missing]
  rfl

/-- A static function is found where it was registered last at this signature, for all or for the
caller. -/
theorem findMember_static_iff {owner name : String} {signature : Signature}
    (passes : l.Passes (MemberQuery.static owner name signature).request)
    (registry : s.registries[l.registry]? = some r) (shows : r.Shows log) :
    (∃ h t, l.findMember (.static owner name signature) s = (.ok h, t)) ↔
      ∃ member, Registration.static? log owner name = some member ∧
        (member.signature == signature) = true ∧
        (member.isPrivate = true → l.caller = owner) := by
  constructor
  · rintro ⟨h, t, found⟩
    obtain ⟨-, u, here⟩ := accepts_of_findMember found
    have same := signature_of_find rfl here
    obtain ⟨action, offers, -⟩ := offers_of_findMember registry found
    obtain ⟨member, known, own⟩ := Option.map_eq_some_iff.1 (offers.registered? shows)
    obtain ⟨other, here, granted, -⟩ := offers.static_inv
    cases here.symm.trans ((shows.static? owner name).trans known)
    obtain ⟨own, -⟩ := FoundMember.mk.inj own
    exact ⟨member, known, own ▸ same, granted⟩
  · rintro ⟨member, known, same, granted⟩
    rw [← shows.static?] at known
    have done : resolved r l.caller (MemberQuery.static owner name signature).request =
        .ok ⟨member.signature, .host member.function⟩ := by
      unfold resolved
      rw [Registry.resolve_static known granted]
      exact if_pos same
    obtain ⟨h, handles, found, -⟩ := find_of_resolved passes registry done
    exact ⟨h, _, bind_of_ok found⟩

/-- What is found for a query was registered last for it, and what a class has is found at the shape
that was asked for. -/
theorem registered_of_findMember (registry : s.registries[l.registry]? = some r)
    (shows : r.Shows log) (found : l.findMember q s = (.ok h, t)) :
    ∃ action, q.registered? log = some ⟨h.signature, action⟩ ∧ h.Performs action ∧
      (q.request.kind ≠ .static → ∃ c, Registration.class? log q.request.owner = some c ∧
        c.name = q.request.owner ∧ (h.signature == q.shape c) = true) := by
  obtain ⟨accepted, -⟩ := accepts_of_findMember found
  obtain ⟨action, offers, performs⟩ := offers_of_findMember registry found
  have member := offers.registered? shows
  refine ⟨action, member, performs, fun other => ?_⟩
  cases q with
  | static => exact absurd rfl other
  | virtual owner | getter owner | setter owner | constructor owner =>
    obtain ⟨c, known, own⟩ := Option.bind_eq_some_iff.1 member
    exact ⟨c, known, Registration.name_of_class? known, MemberQuery.shape_of_accepts own accepted⟩

/-! Derived lookups. -/

/-- A way to derive a lookup from another one. -/
inductive Derivation where
  | withGate (gate : Gate)
  | withCache (cache : Nat)
  | inCaller (caller : String)

/-- The lookup after some derivations, the first one first. -/
def derive (l : Lookup) (steps : List Derivation) : Lookup :=
  steps.foldl (fun l step => match step with
    | .withGate gate => l.withGate gate
    | .withCache cache => l.withCache cache
    | .inCaller caller => l.inCaller caller) l

/-- The caller after some derivations is the last one that was given. -/
def callerAfter (caller : String) (steps : List Derivation) : String :=
  steps.foldl (fun caller step => match step with
    | .inCaller other => other
    | .withGate _ | .withCache _ => caller) caller

/-- The gate after some derivations is the last one that was given. -/
def gateAfter (gate : Option Gate) (steps : List Derivation) : Option Gate :=
  steps.foldl (fun gate step => match step with
    | .withGate other => some other
    | .withCache _ | .inCaller _ => gate) gate

/-- Derivations leave the registry alone, and each sets only what it says. -/
theorem derive_eq (l : Lookup) (steps : List Derivation) :
    (l.derive steps).registry = l.registry ∧
      (l.derive steps).caller = callerAfter l.caller steps ∧
      (l.derive steps).gate = gateAfter l.gate steps := by
  induction steps generalizing l with
  | nil => exact ⟨rfl, rfl, rfl⟩
  | cons step steps ih =>
    cases step with
    | withGate gate => exact ih (l.withGate gate)
    | withCache cache => exact ih (l.withCache cache)
    | inCaller caller => exact ih (l.inCaller caller)

/-- What it comes to that a lookup asks for a member, after some registrations. -/
structure Resolves (l : Lookup) (q : MemberQuery) (log : List Registration) (s : State) : Prop where
  /-- The failure of the gate is the answer, and nothing is resolved. -/
  refused : ∀ gate failure, l.gate = some gate → gate l.caller q.request = .error failure →
    l.findMember q s = (.error (.failed failure), l.asked q.request s)
  /-- What the gate lets pass is resolved after that, as without a gate. -/
  passed : l.Passes q.request → l.findMember q s =
    ({ l with gate := none } : Lookup).findMember q (l.asked q.request s)
  /-- The gate is asked no more than once. -/
  journal : l.Passes q.request →
    (l.findMember q s).2.journal = (l.asked q.request s).journal
  /-- What was not registered is missing. -/
  missing : l.Passes q.request → q.registered? log = none →
    l.findMember q s = (.error (.failed q.request.missing), l.asked q.request s)
  /-- A static function is found at its own signature, by its owner or if all may call it. -/
  static : ∀ owner name signature, q = .static owner name signature → l.Passes q.request →
    ((∃ h t, l.findMember q s = (.ok h, t)) ↔
      ∃ member, Registration.static? log owner name = some member ∧
        (member.signature == signature) = true ∧ (member.isPrivate = true → l.caller = owner))
  /-- What is found is what was registered last, and its handle does what this does. -/
  found : ∀ h t, l.findMember q s = (.ok h, t) → ∃ action,
    q.registered? log = some ⟨h.signature, action⟩ ∧ h.Performs action
  /-- A static function that is found is run. -/
  runs : ∀ owner name signature h t, q = .static owner name signature →
    l.findMember q s = (.ok h, t) → ∃ member,
      Registration.static? log owner name = some member ∧ h.signature = member.signature ∧
      ∀ host n args, Conform args h.signature.params →
        h.invokeExact (runCode host (n + 2)) args = (do
          let v ← callHost host (runCode host n) member.function args
          let w ← Step.checkResult h.signature.ret v
          return h.signature.ret.kept w)
  /-- A member of a class is found at exactly the shape that was asked for. -/
  shape : ∀ h t, l.findMember q s = (.ok h, t) → q.request.kind ≠ .static →
    ∃ c, Registration.class? log q.request.owner = some c ∧ c.name = q.request.owner ∧
      (h.signature == q.shape c) = true

/-- Every lookup that is derived from a lookup for a registry, on behalf of the last caller given
and past the last gate given, finds exactly the member that it asks for, as it was registered
last. -/
theorem findMember_resolves {registry : Nat} (history : RegistryHistory registry log s)
    (base : Lookup) (own : base.registry = registry) (steps : List Derivation) (q : MemberQuery) :
    (base.derive steps).caller = callerAfter base.caller steps ∧
      (base.derive steps).gate = gateAfter base.gate steps ∧
      (base.derive steps).Resolves q log s := by
  obtain ⟨r, found, shows⟩ := history.shows
  obtain ⟨same, caller, gate⟩ := base.derive_eq steps
  refine ⟨caller, gate, ?_⟩
  have known : s.registries[(base.derive steps).registry]? = some r := by
    rwa [same, own]
  generalize base.derive steps = l at known
  exact {
    refused := fun gate failure gated refused => findMember_of_refused gated refused
    passed := findMember_of_passes
    journal := fun passes => by
      obtain ⟨handles, after⟩ := findMember_state passes known
      rw [after]
    missing := fun passes missing => findMember_of_missing passes known shows missing
    static := by
      rintro owner name signature rfl passes
      exact findMember_static_iff passes known shows
    found := fun h t done => by
      obtain ⟨action, member, performs, -⟩ := registered_of_findMember known shows done
      exact ⟨action, member, performs⟩
    runs := by
      rintro owner name signature h t rfl done
      obtain ⟨action, registered, performs, -⟩ := registered_of_findMember known shows done
      obtain ⟨member, here, own⟩ := Option.map_eq_some_iff.1 registered
      obtain ⟨same, rfl⟩ := FoundMember.mk.inj own
      exact ⟨member, here, same.symm, fun host n args conform =>
        performs.invokeExact conform host n⟩
    shape := fun h t done other => by
      obtain ⟨action, -, -, shape⟩ := registered_of_findMember known shows done
      exact shape other }

/-- A private function that was registered twice is found at its later signature, by a lookup on
behalf of its owner only. -/
theorem findMember_resolves_private :
    let base : Lookup := ⟨"Guest", 0, none, 0⟩
    let q : MemberQuery := .static "Main" "secret" ⟨.int, []⟩
    ∃ (log : List Registration) (s : State), RegistryHistory 0 log s ∧ base.registry = 0 ∧
      (∃ h t, (base.derive [.inCaller "Main"]).findMember q s = (.ok h, t)) ∧
      ¬ ∃ h t, (base.derive []).findMember q s = (.ok h, t) := by
  intro base q
  have start : RegistryHistory 0 [] (newRegistry .empty).2 := .start rfl
  have first := @RegistryHistory.static 0 _ _ _ "Main" "secret"
    ⟨⟨.bool, []⟩, ⟨0, "secret"⟩, true⟩ start rfl
  have second := @RegistryHistory.static 0 _ _ _ "Main" "secret"
    ⟨⟨.int, []⟩, ⟨1, "secret"⟩, true⟩ first rfl
  obtain ⟨-, -, own⟩ := findMember_resolves second base rfl [.inCaller "Main"] q
  obtain ⟨-, -, foreign⟩ := findMember_resolves second base rfl [] q
  refine ⟨_, _, second, rfl, (own.static _ _ _ rfl nofun).2 ⟨_, rfl, BEq.rfl, fun _ => rfl⟩,
    fun found => ?_⟩
  obtain ⟨member, known, -, granted⟩ := (foreign.static _ _ _ rfl nofun).1 found
  cases known
  exact absurd (granted rfl) (by decide)

end Lookup
end TypedHandles
