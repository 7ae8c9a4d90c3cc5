import TypedHandles.Proofs.OwnedBuilds
import TypedHandles.Proofs.Primitives

/-!
The operations on cells, caches, registries and linkers, each with the change that it makes. A site
holds the target that it was given, so whoever asks for it gets a handle that refers to what exists.
-/
namespace TypedHandles

variable {W L : Prop} {s t : State}

/-- What a state holds besides the cells may be replaced by anything that refers to what exists. -/
theorem State.Closed.beside (closed : s.Closed W) (objects : t.objects = s.objects)
    (throwables : t.suppressed = s.suppressed) (sites : t.sites = s.sites)
    (handles : t.handles.Within W s)
    (caches : ∀ (i : Nat) (c : SharedHandles), t.caches[i]? = some c → c.Within W s)
    (links : ∀ (i : Nat) (table : LinkTable), t.linkers[i]? = some table →
      ∀ e ∈ table, e.2.id < s.sites.size) : s.Makes W t := by
  have grows : s.Grows t :=
    ⟨objects ▸ Nat.le_refl _, throwables ▸ Nat.le_refl _, sites ▸ Nat.le_refl _⟩
  have same : t.held = s.held := State.held_eq objects throwables sites
  refine .beside objects throwables sites {
    held := fun n m mem => (closed.held n m (same ▸ mem)).mono grows
    handles := handles.mono grows
    caches := fun i c found => (caches i c found).mono grows
    links := fun i table found e mem => Nat.lt_of_lt_of_le (links i table found e mem) grows.sites }

namespace Exec.Stays

variable {α : Type} {Q : State → α → Prop}

/-- A computation that makes handles. -/
theorem ofBuild {x : Build α} (h : ∀ t, s.Grows t → Build.Stays W t x (Q t))
    (lasts : ∀ t u a, t.Grows u → Q t a → Q u a) : Stays W L s (Exec.ofBuild x) Q := by
  intro t grows closed
  obtain ⟨within, ends⟩ := h t grows t.handles closed.handles
  have makes : t.Makes W (Exec.ofBuild x t).2 :=
    closed.beside rfl rfl rfl within closed.caches closed.links
  refine ⟨[], .made .start makes, fun _ => rfl, Ends.intro (fun e failed => ?_) fun a done => ?_⟩
  · exact Halt.within_of_isStatic (ends.of_eq_error failed)
  · exact lasts t _ a makes.grows (ends.of_eq_ok done)

/-- A computation that makes a handle. -/
theorem ofBuild_handle {x : Build Handle}
    (h : ∀ t, s.Grows t → Build.Stays W t x (Handle.Within W t)) :
    Stays W L s (Exec.ofBuild x) fun t h => h.Within W t :=
  ofBuild h fun _ _ _ grows within => within.mono grows

/-- A change of what a state holds besides the cells. -/
theorem change {f : State → State} (h : ∀ t, s.Grows t → t.Closed W → t.Makes W (f t)) :
    Stays W L s (modify f : Exec Unit) fun _ _ => True :=
  make fun t grows closed => ⟨h t grows closed, ⟨⟩, rfl, trivial⟩

end Exec.Stays

theorem record_stays (e : Event) : Exec.Stays W L s (Exec.record e) fun _ _ => True :=
  .change fun _ _ closed => closed.beside rfl rfl rfl closed.handles closed.caches closed.links

/-! Objects and throwables. -/

theorem newObject_stays (c : ClassDef) {fields : List Value}
    (within : ∀ v ∈ fields, v.Within W s) :
    Exec.Stays W L s (newObject c fields) fun t o => o.id < t.objects.size := by
  refine .make fun t grows _ => ⟨.object fields fun v mem => (within v mem).mono grows, _, rfl, ?_⟩
  simp [newObject]

/-- Only what may write can store into a field. -/
theorem ObjectRef.setField_stays (o : ObjectRef) (index : Nat) {v : Value} (may : L)
    (within : v.Within W s) : Exec.Stays W L s (o.setField index v) fun _ _ => True := by
  intro t grows closed
  unfold setField
  dsimp only
  split
  · next inside =>
    exact ⟨_, .written .start (.field o index v inside (within.mono grows)),
      fun none => absurd may none, trivial⟩
  · exact ⟨[], .start, fun _ => rfl, trivial⟩

theorem newThrowable_stays (c : ClassDef) (message : String) :
    Exec.Stays W L s (newThrowable c message) fun t x => x.id < t.suppressed.size := by
  refine .make fun t grows _ => ⟨.throwable, _, rfl, ?_⟩
  simp [newThrowable]

theorem Failure.Within.mono {failure : Failure} (grows : s.Grows t) (h : failure.Within s) :
    failure.Within t :=
  fun x thrown => Nat.lt_of_lt_of_le (h x thrown) grows.throwables

theorem Failure.within_thrown {x : Throwable} (made : x.id < s.suppressed.size) :
    (Failure.thrown x).Within s := by
  rintro _ ⟨⟩
  exact made

/-- What is thrown was made. -/
theorem Exec.Stays.thrown {α : Type} {Q : State → α → Prop} {x : Throwable}
    (made : x.id < s.suppressed.size) :
    Exec.Stays W L s (Exec.refuse (.thrown x) : Exec α) Q :=
  .ofChecked fun _ grows =>
    Failure.within_thrown (Nat.lt_of_lt_of_le made grows.throwables)

theorem throwNew_stays {α : Type} {Q : State → α → Prop} (c : ClassDef) (message : String) :
    Exec.Stays W L s (throwNew c message : Exec α) Q :=
  (newThrowable_stays c message).bind fun _ _ _ made => .thrown made

theorem asThrowable_stays {failure : Failure} (within : failure.Within s) :
    Exec.Stays W L s (asThrowable failure) fun t x => x.id < t.suppressed.size := by
  unfold asThrowable
  split
  · next x => exact .pure fun t grows => Nat.lt_of_lt_of_le (within x rfl) grows.throwables
  · exact newThrowable_stays _ _

/-- Only what may write can suppress a throwable. -/
theorem Throwable.suppress_stays {x other : Throwable} (may : L)
    (made : x.id < s.suppressed.size) (otherMade : other.id < s.suppressed.size) :
    Exec.Stays W L s (x.suppress other) fun _ _ => True := by
  refine .write may fun t grows => ⟨_, _, .suppressed x other ?_ ?_, ⟨⟩, rfl, trivial⟩
  · exact Nat.lt_of_lt_of_le made grows.throwables
  · exact Nat.lt_of_lt_of_le otherMade grows.throwables

/-! Call sites. -/

theorem newSite_stays (kind : SiteKind) (signature : Signature) {target : Option Handle}
    (within : ∀ h ∈ target, h.Within W s) :
    Exec.Stays W L s (newSite kind signature target) fun t c => c.id < t.sites.size := by
  refine .make fun t grows _ => ⟨.site target fun h mem => (within h mem).mono grows, _, rfl, ?_⟩
  simp [newSite]

theorem siteFor_stays (kind : SiteKind) {target : Handle} (within : target.Within W s) :
    Exec.Stays W L s (siteFor kind target) fun t c => c.id < t.sites.size :=
  newSite_stays kind _ fun _ eq => Option.some.inj eq ▸ within

namespace CallSite

variable {site : CallSite} {target : Handle}

theorem target_stays (site : CallSite) :
    Exec.Stays W L s site.target fun t h => h.Within W t := by
  unfold CallSite.target
  refine Exec.Stays.get.bind fun t u _ => ?_
  rintro ⟨rfl, closed⟩
  split
  · next h found =>
    refine .pure fun v grows => Node.Within.mono grows (closed.held (.site site.id) _ ?_)
    unfold State.target? State.cell? at found
    simp only [State.held, found]
    exact List.mem_singleton.2 rfl
  · exact .refuse rfl

theorem checkRetarget_static (site : CallSite) (target : Handle) :
    Ends (·.isStatic = true) (fun _ => site.checkRetarget target = .ok ())
      (site.checkRetarget target) := by
  refine Ends.intro (fun e refused => ?_) fun _ accepted => accepted
  unfold checkRetarget at refused
  split at refused
  · cases refused
    rfl
  · split at refused <;> cases refused
    rfl

/-- Only what may write can give a site another target. -/
theorem setTargetFenced_stays (may : L) (made : site.id < s.sites.size)
    (within : target.Within W s) :
    Exec.Stays W L s (site.setTargetFenced target) fun _ _ => True := by
  unfold setTargetFenced store
  refine (Exec.Stays.ofExcept fun _ _ => checkRetarget_static site target).bind
    fun t _ grows accepted => ?_
  refine Exec.Stays.bind (P := fun _ _ => True) ?_ fun _ _ _ _ => record_stays _
  refine .write may fun u grows' => ⟨_, _, .target site target ?_ accepted ?_, ⟨⟩, rfl, trivial⟩
  · exact Nat.lt_of_lt_of_le made (grows.trans grows').sites
  · exact within.mono (grows.trans grows')

theorem setTargetPlain_stays (may : L) (made : site.id < s.sites.size)
    (within : target.Within W s) :
    Exec.Stays W L s (site.setTargetPlain target) fun _ _ => True := by
  unfold setTargetPlain
  split
  · exact setTargetFenced_stays may made within
  · exact setTargetFenced_stays may made within

theorem setTarget_stays (may : L) (made : site.id < s.sites.size) (within : target.Within W s) :
    Exec.Stays W L s (site.setTarget target) fun _ _ => True := by
  unfold setTarget
  split
  · exact setTargetFenced_stays may made within
  · exact setTargetPlain_stays may made within
  · exact setTargetPlain_stays may made within

end CallSite

/-! Caches. -/

namespace SharedHandles

variable {c : SharedHandles}

theorem empty_within : SharedHandles.empty.Within W s :=
  ⟨List.forall_mem_nil _, List.forall_mem_nil _⟩

theorem constant_stays (within : c.Within W s) (kind : Kind) {v : Value}
    (valueWithin : v.Within W s) :
    Build.Stays W s (c.constant kind v) fun r => r.1.Within W s ∧ r.2.Within W s := by
  unfold constant
  refine (Build.Stays.ofChecked (Value.coerce_ends v kind).ofExcept).bind fun w fitted => ?_
  have fits : w.Within W s := Value.within_of_coerce valueWithin fitted
  have created := Build.accept_stays (Blueprint.constant_within kind fits)
  split
  · exact created.bind fun _ made => .pure ⟨made, within⟩
  · dsimp only
    split
    · next shared found =>
      obtain ⟨e, mem, rfl⟩ := exists_mem_of_lookup found
      exact .pure ⟨within.constants e mem, within⟩
    · exact created.bind fun _ made =>
        .pure ⟨made, List.forall_mem_cons.2 ⟨made, within.constants⟩, within.identities⟩

theorem identity_stays (within : c.Within W s) (kind : Kind) :
    Build.Stays W s (c.identity kind) fun r => r.1.Within W s ∧ r.2.Within W s := by
  unfold identity
  split
  · next shared found =>
    obtain ⟨e, mem, rfl⟩ := exists_mem_of_lookup found
    exact .pure ⟨within.identities e mem, within⟩
  · exact (Build.accept_stays (Blueprint.identity_within kind)).bind fun _ made =>
      .pure ⟨made, within.constants, List.forall_mem_cons.2 ⟨made, within.identities⟩⟩

end SharedHandles

/-- A cache of handles that refer to what exists may be stored. -/
theorem storeCache_stays (cache : Nat) {c : SharedHandles} (within : c.Within W s) :
    Exec.Stays W L s
      (modify fun s => { s with caches := s.caches.setIfInBounds cache c } : Exec Unit)
      fun _ _ => True := by
  refine .change fun t grows closed =>
    closed.beside rfl rfl rfl closed.handles (fun i other found => ?_) closed.links
  rw [Array.getElem?_setIfInBounds] at found
  split at found
  · split at found <;> cases found
    exact within.mono grows
  · exact closed.caches i other found

theorem withCache_stays (cache : Nat) {f : SharedHandles → Build (Handle × SharedHandles)}
    (h : ∀ t c, s.Grows t → c.Within W t →
      Build.Stays W t (f c) fun r => r.1.Within W t ∧ r.2.Within W t) :
    Exec.Stays W L s (withCache cache f) fun t h => h.Within W t := by
  unfold withCache
  refine Exec.Stays.get.bind fun t u grows => ?_
  rintro ⟨rfl, closed⟩
  refine Exec.Stays.bind (P := fun t c => c.Within W t) ?_ fun v c grows' within => ?_
  · exact .ofOption fun v c grows' found => (closed.caches cache c found).mono grows'
  refine Exec.Stays.bind (P := fun t r => r.1.Within W t ∧ r.2.Within W t) ?_ ?_
  · exact .ofBuild
      (fun v' grows'' => h v' c ((grows.trans grows').trans grows'') (within.mono grows''))
      fun _ _ _ more holds => ⟨holds.1.mono more, holds.2.mono more⟩
  · rintro v' ⟨made, updated⟩ - ⟨madeWithin, updatedWithin⟩
    exact (storeCache_stays cache updatedWithin).bind fun _ _ more _ =>
      .pure fun _ still => madeWithin.mono (more.trans still)

/-! Registries and lookups. -/

theorem registerStatic_stays (registry : Nat) (owner name : String) (member : StaticMember) :
    Exec.Stays W L s (registerStatic registry owner name member) fun _ _ => True :=
  .change fun _ _ closed => closed.beside rfl rfl rfl closed.handles closed.caches closed.links

theorem registerClass_stays (registry : Nat) (c : ClassDef) :
    Exec.Stays W L s (registerClass registry c) fun _ _ => True :=
  .change fun _ _ closed => closed.beside rfl rfl rfl closed.handles closed.caches closed.links

theorem count_stays (counter : Nat) :
    Exec.Stays W L s (do
      let found ← Exec.ofOption (← get).counters[counter]?
      modify fun s => { s with counters := s.counters.setIfInBounds counter (found + 1) }
      return .long (.ofNat found) : Exec Value) fun t v => v.Within W t := by
  refine Exec.Stays.get.bind fun t u _ _ => ?_
  refine Exec.Stays.bind (P := fun _ _ => True)
    (.ofOption fun _ _ _ _ => trivial) fun _ found _ _ => ?_
  refine Exec.Stays.bind (P := fun _ _ => True) ?_ fun _ _ _ _ =>
    .pure fun _ _ => Value.within_of_isPlain rfl
  exact .change fun _ _ closed =>
    closed.beside rfl rfl rfl closed.handles closed.caches closed.links

/-- What a registry finds refers to nothing, and it writes just if it is a setter. -/
theorem Registry.resolve_within (r : Registry) (caller : String) (request : MemberRequest)
    (may : request.kind = .setter → W) :
    Ends (·.isStatic = true) (fun member => member.action.Within W s)
      (r.resolve caller request) := by
  unfold resolve
  split
  · split
    · rfl
    · exact (checkAccess_ends _ _ _).bind fun _ _ => ⟨nofun, nofun⟩
  · refine (r.owner_ends request).bind fun c _ => ?_
    split
    · rfl
    · refine (checkAccess_ends _ _ _).bind fun _ _ => ?_
      exact (Signature.replaceParams_ends _ _ _ _).bind fun _ _ => ⟨nofun, nofun⟩
  · refine (r.owner_ends request).bind fun c _ => ?_
    refine (field_ends c request).bind fun kind _ => ?_
    exact (Signature.make_ends _ _).bind fun _ _ => ⟨nofun, nofun⟩
  · next setter =>
    refine (r.owner_ends request).bind fun c _ => ?_
    refine (field_ends c request).bind fun kind _ => ?_
    exact (Signature.make_ends _ _).bind fun _ _ => ⟨fun _ => may setter, nofun⟩
  · refine (r.owner_ends request).bind fun c _ => ?_
    exact (Signature.make_ends _ _).bind fun _ _ => ⟨nofun, nofun⟩

namespace Lookup

variable {l : Lookup}

/-- A lookup whose gate throws nothing but what was made. -/
def Within (s : State) (l : Lookup) : Prop :=
  ∀ gate ∈ l.gate, ∀ caller request f, gate caller request = .error f → f.Within s

theorem checkGate_stays (within : l.Within s) (request : MemberRequest) :
    Exec.Stays W L s (l.checkGate request) fun _ _ => True := by
  unfold checkGate
  split
  · next gate found =>
    refine (record_stays _).bind fun t _ grows _ => .ofChecked fun u grows' => ?_
    cases asked : gate l.caller request with
    | ok _ => trivial
    | error f => exact (within gate found _ _ f asked).mono (grows.trans grows')
  · exact .pure fun _ _ => trivial

theorem find_stays (within : l.Within s) (request : MemberRequest)
    (may : request.kind = .setter → W) :
    Exec.Stays W L s (l.find request) fun t h => h.Within W t := by
  unfold find
  refine (checkGate_stays within request).bind fun _ _ _ _ => ?_
  refine Exec.Stays.get.bind fun _ _ _ _ => ?_
  refine Exec.Stays.bind (P := fun _ _ => True)
    (.ofOption fun _ _ _ _ => trivial) fun _ registry _ _ => ?_
  refine Exec.Stays.bind (P := fun t member => member.action.Within W t)
    (.ofExcept fun _ _ => registry.resolve_within _ request may) fun t member _ found => ?_
  have made : Exec.Stays W L t
      (Exec.ofBuild (Blueprint.ofAction member.signature member.action).make)
      fun t h => h.Within W t :=
    .ofBuild_handle fun _ grows =>
      Blueprint.make_stays (Blueprint.ofAction_within (found.mono grows))
  dsimp only
  split
  · split
    · exact .refuse rfl
    · exact made
  · exact made

theorem findMember_stays (within : l.Within s) (query : MemberQuery)
    (may : query.request.kind = .setter → W) :
    Exec.Stays W L s (l.findMember query) fun t h => h.Within W t := by
  unfold findMember
  refine (find_stays within query.request may).bind fun t h _ found => ?_
  dsimp only
  split
  · refine .refuse ?_
    cases query <;> rfl
  · exact .pure fun _ grows => found.mono grows

end Lookup

/-! Linkers. -/

namespace Linker

theorem checkSignature_static (d : Descriptor) (found : Signature) :
    Ends (·.isStatic = true) (fun _ => True) (checkSignature d found) := by
  unfold checkSignature
  split <;> trivial

theorem accept_stays (l : Linker) (d : Descriptor) {v : Value} (within : v.Within W s) :
    Exec.Stays W L s (l.accept d v) fun t c => c.id < t.sites.size := by
  unfold accept
  split
  · next site =>
    refine (Exec.Stays.ofExcept fun _ _ => checkSignature_static d _).bind fun t _ grows _ => ?_
    have made := Value.within_callSite_iff.1 within
    exact .pure fun u grows' => Nat.lt_of_lt_of_le made (grows.trans grows').sites
  · next h =>
    split
    · refine (Exec.Stays.ofExcept fun _ _ => checkSignature_static d _).bind fun t _ grows _ => ?_
      exact siteFor_stays _ ((Value.within_handle_iff.1 within).mono grows)
    · exact .refuse rfl
  · exact .refuse rfl

theorem resolve_stays (l : Linker) (d : Descriptor) {bootstrap : Exec Value}
    (stays : Exec.Stays W L s bootstrap fun t v => v.Within W t) :
    Exec.Stays W L s (l.resolve d bootstrap) fun t c => c.id < t.sites.size := by
  unfold resolve
  refine stays.attempt.bind fun t answer _ ends => ?_
  split
  · exact l.accept_stays d ends
  · next cause =>
    refine .ofChecked fun u grows => ?_
    unfold bootstrapFailure
    split
    · exact Failure.Within.mono grows ends
    · exact Failure.within_of_isStatic rfl

/-- A site that is in a table was made. -/
theorem linked_made {l : Linker} {point : UInt64} {site : CallSite} (closed : s.Closed W)
    (found : l.linked? s point = some site) : site.id < s.sites.size := by
  obtain ⟨e, mem, rfl⟩ := exists_mem_of_lookup found
  unfold table at mem
  cases stored : s.linkers[l.id]? with
  | none =>
    rw [stored] at mem
    cases mem
  | some table =>
    rw [stored] at mem
    exact closed.links l.id table stored e mem

/-- A change of one table, as long as its sites were made. -/
theorem storeTable_makes (closed : s.Closed W) (l : Linker) (f : LinkTable → LinkTable)
    (journal : List Event)
    (h : ∀ table : LinkTable, (∀ e ∈ table, e.2.id < s.sites.size) →
      ∀ e ∈ f table, e.2.id < s.sites.size) :
    s.Makes W { s with linkers := s.linkers.modify l.id f, journal := journal } := by
  refine closed.beside rfl rfl rfl closed.handles closed.caches fun i table found => ?_
  rw [Array.getElem?_modify] at found
  split at found
  · obtain ⟨old, stored, rfl⟩ := Option.map_eq_some_iff.1 found
    exact h old (closed.links i old stored)
  · exact closed.links i table found

theorem publish_stays (l : Linker) (point : UInt64) {site : CallSite}
    (made : site.id < s.sites.size) :
    Exec.Stays W L s (l.publish point site) fun t c => c.id < t.sites.size := by
  intro t grows closed
  have made := Nat.lt_of_lt_of_le made grows.sites
  unfold publish
  split
  · next published found => exact ⟨[], .start, fun _ => rfl, linked_made closed found⟩
  · refine ⟨[], .made .start (storeTable_makes closed l _ _ fun table known => ?_), fun _ => rfl,
      made⟩
    exact List.forall_mem_cons.2 ⟨made, known⟩

theorem link_stays (l : Linker) (point : UInt64) (d : Descriptor) {bootstrap : Exec Value}
    (stays : Exec.Stays W L s bootstrap fun t v => v.Within W t) :
    Exec.Stays W L s (l.link point d bootstrap) fun t c => c.id < t.sites.size := by
  unfold link
  refine Exec.Stays.get.bind fun t u grows => ?_
  rintro ⟨rfl, closed⟩
  split
  · next site found =>
    exact .pure fun v grows' => Nat.lt_of_lt_of_le (linked_made closed found) grows'.sites
  · exact (l.resolve_stays d (stays.mono grows)).bind fun _ _ _ made => l.publish_stays point made

theorem unregister_stays (l : Linker) (point : UInt64) :
    Exec.Stays W L s (l.unregister point) fun t found => ∀ c ∈ found, c.id < t.sites.size := by
  intro t _ closed
  unfold unregister
  split
  · next site found =>
    have made := linked_made closed found
    refine ⟨[], .made .start (storeTable_makes closed l _ _ fun table known e mem => ?_),
      fun _ => rfl, fun c eq => Option.some.inj eq ▸ made⟩
    exact known e (List.mem_of_mem_filter mem)
  · exact ⟨[], .start, fun _ => rfl, nofun⟩

end Linker
end TypedHandles
