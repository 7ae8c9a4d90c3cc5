import TypedHandles.Proofs.BuildScoping
import TypedHandles.Proofs.Primitives

/-!
States of a world, and the computations that stay in it.

`State.InWorld` is the invariant: whatever a state holds is in scope, each call site holds what its
history allows, and each linked site has a signature at which its point may be linked.
`Exec.Keeps` is the triple of computations that keep the invariant and are never stuck; the world
grows by the call sites that they make.
-/
namespace TypedHandles

variable {S S' : Scope} {σ τ : World}

/-- The target that an event gives to the call site of a number. -/
def Event.newTarget? (i : Nat) : Event → Option Handle
  | .retargeted site target => if site.id = i then some target else none
  | _ => none

/-- Whether an event gives the call site of a number another target. -/
def Event.retargets (i : Nat) (e : Event) : Bool := (e.newTarget? i).isSome

/-- A cache of handles in scope. -/
structure SharedHandles.InScope (S : Scope) (c : SharedHandles) : Prop where
  constants : ∀ e ∈ c.constants, S.handle e.2
  identities : ∀ e ∈ c.identities, S.handle e.2

/-- What the cell of a call site holds, by how the site was made and by what happened since: its
latest target, or else its first. -/
structure SiteCell.Follows (S : Scope) (i : Nat) (journal : List Event) (o : SiteOrigin)
    (cell : SiteCell) : Prop where
  target_eq : cell.target = (journal.findSome? (Event.newTarget? i)).or o.target
  generation_eq : cell.generation = .ofNat (journal.countP (Event.retargets i))
  target : ∀ h, cell.target = some h → S.handle h ∧ (h.signature == o.signature) = true

/-- A state with what is in a world, and nothing else. -/
structure State.InWorld (σ : World) (s : State) : Prop where
  handles : s.handles.InScope σ.scope
  site_count : s.sites.size = σ.sites.length
  registry_count : s.registries.size = σ.registries
  cache_count : s.caches.size = σ.caches
  counter_count : s.counters.size = σ.counters
  cells : ∀ (i : Nat) (o : SiteOrigin) (cell : SiteCell), σ.sites[i]? = some o →
    s.sites[i]? = some cell → cell.Follows σ.scope i s.journal o
  /-- Only sites that were made get another target, and only one that they may have. -/
  noted : ∀ (c : CallSite) (h : Handle), .retargeted c h ∈ s.journal →
    σ.Site c ∧ c.checkRetarget h = .ok ()
  fields : ∀ (o : ObjectRef), ∀ v ∈ s.fields o, v.InScope σ.scope
  statics : ∀ (i : Nat) (r : Registry), s.registries[i]? = some r →
    ∀ e ∈ r.statics, e.2.signature.WellFormed
  caches : ∀ (i : Nat) (c : SharedHandles), s.caches[i]? = some c → c.InScope σ.scope
  /-- A linked site has a signature at which its point may be linked. -/
  links : ∀ (i : Nat) (table : LinkTable), s.linkers[i]? = some table →
    ∀ e ∈ table, σ.Site e.2 ∧ ∃ d, σ.point i e.1 d ∧ (e.2.signature == d) = true

/-- A computation that is never stuck. It stays in the world, which may grow, and what it returns is
as `Q` says. -/
def Exec.Keeps {α : Type} (σ : World) (x : Exec α) (Q : World → α → Prop) : Prop :=
  ∀ s : State, s.InWorld σ →
    ∃ τ, σ.Grows τ ∧ (x s).2.InWorld τ ∧ Ends Halt.Proper (Q τ) (x s).1

namespace Exec.Keeps

variable {α β : Type} {P Q : World → α → Prop} {R : World → β → Prop} {x : Exec α}

theorem pure {a : α} (h : Q σ a) : Keeps σ (Pure.pure a) Q :=
  fun _ inWorld => ⟨σ, .refl σ, inWorld, h⟩

theorem exhausted : Keeps σ (throw .exhausted : Exec α) Q :=
  fun _ inWorld => ⟨σ, .refl σ, inWorld, trivial⟩

theorem bind {f : α → Exec β} (hx : Keeps σ x P)
    (hf : ∀ τ a, σ.Grows τ → P τ a → Keeps τ (f a) R) : Keeps σ (x >>= f) R := by
  intro s inWorld
  obtain ⟨τ, grows, inWorld', ends⟩ := hx s inWorld
  cases result : x s with
  | mk outcome t =>
    rw [result] at inWorld' ends
    cases outcome with
    | error e =>
      rw [bind_of_error result]
      exact ⟨τ, grows, inWorld', ends⟩
    | ok a =>
      rw [bind_of_ok result]
      obtain ⟨ρ, grows', rest⟩ := hf τ a grows ends t inWorld'
      exact ⟨ρ, grows.trans grows', rest⟩

theorem imp (hx : Keeps σ x P) (weaker : ∀ τ a, σ.Grows τ → P τ a → Q τ a) : Keeps σ x Q := by
  intro s inWorld
  obtain ⟨τ, grows, inWorld', ends⟩ := hx s inWorld
  exact ⟨τ, grows, inWorld', ends.imp fun a => weaker τ a grows⟩

/-- What is known of a result whatever the state was is known of it here. -/
theorem also {C : α → Prop} (hx : Keeps σ x Q) (h : ∀ s a t, x s = (.ok a, t) → C a) :
    Keeps σ x fun τ a => Q τ a ∧ C a := by
  intro s inWorld
  obtain ⟨τ, grows, inWorld', ends⟩ := hx s inWorld
  refine ⟨τ, grows, inWorld', ?_⟩
  cases result : x s with
  | mk outcome t =>
    rw [result] at ends
    cases outcome with
    | ok a => exact ⟨ends, h s a t result⟩
    | error e => exact ends

/-- A failure is handed on as a result. -/
theorem attempt (hx : Keeps σ x P) :
    Keeps σ x.attempt fun τ answer => Ends (fun _ => True) (P τ) answer := by
  intro s inWorld
  obtain ⟨τ, grows, inWorld', ends⟩ := hx s inWorld
  simp only [Exec.attempt]
  cases result : x s with
  | mk outcome t =>
    rw [result] at inWorld' ends
    cases outcome with
    | ok a => exact ⟨τ, grows, inWorld', ends⟩
    | error halt =>
      cases halt with
      | stuck => exact ends.elim
      | failed f => exact ⟨τ, grows, inWorld', trivial⟩
      | exhausted => exact ⟨τ, grows, inWorld', trivial⟩

theorem ofChecked {x : Checked α} (h : Ends Halt.Proper (Q σ) x) :
    Keeps σ (Exec.ofChecked x) Q :=
  fun _ inWorld => ⟨σ, .refl σ, inWorld, h⟩

theorem refuse {failure : Failure} : Keeps σ (Exec.refuse failure : Exec α) Q :=
  ofChecked (show Ends Halt.Proper _ (Checked.refuse failure) from trivial)

theorem ofExcept {E : Failure → Prop} {x : Except Failure α} (h : Ends E (Q σ) x) :
    Keeps σ (Exec.ofExcept x) Q :=
  ofChecked h.proper

/-- Something that is there. -/
theorem ofSome {x : Option α} (h : ∃ a, x = some a ∧ Q σ a) : Keeps σ (Exec.ofOption x) Q :=
  ofChecked (.ofSome h)

/-- A check in front of a computation: nothing follows where it refuses. -/
theorem check {c : Prop} [Decidable c] {failure : Failure} {next : Unit → Exec α}
    (passed : ¬ c → Keeps σ (next ()) Q) :
    Keeps σ (if c then (do let r ← Exec.refuse failure; next r) else next ()) Q := by
  by_cases h : c
  · rw [if_pos h]
    exact fun _ inWorld => ⟨σ, .refl σ, inWorld, trivial⟩
  · rw [if_neg h]
    exact passed h

/-- A computation that reads the state. -/
theorem get : Keeps σ (MonadState.get : Exec State) fun τ s => s.InWorld τ :=
  fun _ inWorld => ⟨σ, .refl σ, inWorld, inWorld⟩

/-- A change of the state that stays in the world. -/
theorem change {f : State → State} (h : ∀ s : State, s.InWorld σ → (f s).InWorld σ) :
    Keeps σ (modify f : Exec Unit) fun _ _ => True :=
  fun s inWorld => ⟨σ, .refl σ, h s inWorld, trivial⟩

/-- What is made of handles in scope. -/
theorem ofBuild {x : Build α} {C : α → Prop} (h : Build.Keeps σ.scope x C) :
    Keeps σ (Exec.ofBuild x) fun τ a => τ = σ ∧ C a := by
  intro s inWorld
  obtain ⟨handles, ends⟩ := h s.handles inWorld.handles
  exact ⟨σ, .refl σ, { inWorld with handles := handles }, ends.imp fun _ made => ⟨rfl, made⟩⟩

/-- A handle that is made of handles in scope. -/
theorem ofBuild_handle {x : Build Handle} (h : Build.Keeps σ.scope x σ.scope.handle) :
    Keeps σ (Exec.ofBuild x) fun τ h => τ.scope.handle h :=
  (ofBuild h).imp fun _ _ _ made => made.1 ▸ made.2

end Exec.Keeps

/-! The journal and the objects. -/

/-- An event about anything else leaves a site as it is. -/
theorem SiteCell.Follows.skip {i : Nat} {journal : List Event} {o : SiteOrigin} {cell : SiteCell}
    {e : Event} (other : e.newTarget? i = none) (h : cell.Follows S i journal o) :
    cell.Follows S i (e :: journal) o where
  target_eq := by rw [List.findSome?_cons, other, h.target_eq]
  generation_eq := by
    rw [List.countP_cons_of_neg (by simp [Event.retargets, other]), h.generation_eq]
  target := h.target

/-- Notes of anything but another target. -/
theorem record_keeps {e : Event} (plain : ∀ i, e.newTarget? i = none) :
    Exec.Keeps σ (Exec.record e) fun _ _ => True := by
  refine .change fun s inWorld => { inWorld with
    cells := fun i o cell origin found => (inWorld.cells i o cell origin found).skip (plain i)
    noted := fun c h mem => ?_ }
  rcases List.mem_cons.1 mem with rfl | mem
  · have noted := plain c.id
    simp [Event.newTarget?] at noted
  · exact inWorld.noted c h mem

theorem newObject_keeps (c : ClassDef) {fields : List Value}
    (inScope : ∀ v ∈ fields, v.InScope σ.scope) :
    Exec.Keeps σ (newObject c fields) fun _ _ => True := by
  refine fun s inWorld => ⟨σ, .refl σ, { inWorld with fields := fun o v mem => ?_ }, trivial⟩
  simp only [newObject, State.fields, Array.getElem?_push] at mem
  split at mem
  · exact inScope v mem
  · exact inWorld.fields o v mem

theorem ObjectRef.setField_keeps (o : ObjectRef) (index : Nat) {v : Value}
    (inScope : v.InScope σ.scope) : Exec.Keeps σ (o.setField index v) fun _ _ => True := by
  intro s inWorld
  refine ⟨σ, .refl σ, ?_, ?_⟩ <;> unfold setField <;> dsimp only <;> split
  · refine { inWorld with fields := fun other w mem => ?_ }
    simp only [State.fields, Array.getElem?_setIfInBounds] at mem
    split at mem
    · split at mem
      · rcases List.mem_or_eq_of_mem_set mem with mem | rfl
        · exact inWorld.fields o w mem
        · exact inScope
      · cases mem
    · exact inWorld.fields other w mem
  · exact inWorld
  · trivial
  · trivial

theorem State.InWorld.field {s : State} (inWorld : s.InWorld σ) {o : ObjectRef} {index : Nat}
    {v : Value} (found : s.field? o index = some v) : v.InScope σ.scope :=
  inWorld.fields o v (List.mem_of_getElem? found)

theorem newThrowable_keeps (c : ClassDef) (message : String) :
    Exec.Keeps σ (newThrowable c message) fun _ _ => True :=
  fun _ inWorld => ⟨σ, .refl σ, { inWorld with }, trivial⟩

theorem throwNew_keeps {α : Type} (c : ClassDef) (message : String) {Q : World → α → Prop} :
    Exec.Keeps σ (throwNew c message) Q :=
  (newThrowable_keeps c message).bind fun _ _ _ _ => .refuse

theorem Throwable.suppress_keeps (t other : Throwable) :
    Exec.Keeps σ (t.suppress other) fun _ _ => True :=
  .change fun _ inWorld => { inWorld with }

theorem asThrowable_keeps (f : Failure) : Exec.Keeps σ (asThrowable f) fun _ _ => True := by
  unfold asThrowable
  split
  · exact .pure trivial
  · exact newThrowable_keeps _ _

/-! Call sites. -/

/-- The world with one more call site. -/
def World.addSite (σ : World) (o : SiteOrigin) : World := { σ with sites := σ.sites ++ [o] }

theorem World.grows_addSite (σ : World) (o : SiteOrigin) : σ.Grows (σ.addSite o) :=
  ⟨List.prefix_append _ _, Nat.le_refl _, Nat.le_refl _, Nat.le_refl _, rfl⟩

theorem SharedHandles.InScope.mono {c : SharedHandles} (grows : S.Grows S') (h : c.InScope S) :
    c.InScope S' :=
  ⟨fun e mem => grows.handle _ (h.constants e mem),
    fun e mem => grows.handle _ (h.identities e mem)⟩

theorem SiteCell.Follows.mono {i : Nat} {journal : List Event} {o : SiteOrigin} {cell : SiteCell}
    (grows : S.Grows S') (h : cell.Follows S i journal o) : cell.Follows S' i journal o := by
  refine { h with target := fun g found => ?_ }
  obtain ⟨known, same⟩ := h.target g found
  exact ⟨grows.handle _ known, same⟩

/-- The cell of a call site that is in a world. -/
theorem State.InWorld.cell {s : State} (inWorld : s.InWorld σ) {c : CallSite} (site : σ.Site c) :
    ∃ cell o, s.cell? c = some cell ∧ o.kind = c.kind ∧ o.signature = c.signature ∧
      σ.sites[c.id]? = some o ∧ cell.Follows σ.scope c.id s.journal o := by
  obtain ⟨-, o, origin, kind, signature⟩ := site
  have inside : c.id < s.sites.size := by
    rw [inWorld.site_count]
    exact (List.getElem?_eq_some_iff.1 origin).1
  have found := Array.getElem?_eq_getElem inside
  exact ⟨_, o, found, kind, signature, origin, inWorld.cells _ o _ origin found⟩

/-- The target of a call site is of the signature of the site. -/
theorem State.InWorld.target {s : State} (inWorld : s.InWorld σ) {c : CallSite} (site : σ.Site c)
    {h : Handle} (found : s.target? c = some h) :
    σ.scope.handle h ∧ (h.signature == c.signature) = true := by
  obtain ⟨cell, o, hcell, -, signature, -, follows⟩ := inWorld.cell site
  rw [State.target?, hcell] at found
  rw [← signature]
  exact follows.target h found

/-- Nothing is noted of a site that is still to be made. -/
theorem State.InWorld.unnoted {s : State} (inWorld : s.InWorld σ) {i : Nat}
    (beyond : s.sites.size ≤ i) : ∀ e ∈ s.journal, e.newTarget? i = none := by
  intro e mem
  unfold Event.newTarget?
  split
  · next c h =>
    obtain ⟨⟨-, o, known, -⟩, -⟩ := inWorld.noted c h mem
    have inside := (List.getElem?_eq_some_iff.1 known).1
    rw [← inWorld.site_count] at inside
    exact if_neg (Nat.ne_of_lt (Nat.lt_of_lt_of_le inside beyond))
  · rfl

theorem SiteCell.Follows.new {i : Nat} {journal : List Event} {o : SiteOrigin}
    (unnoted : ∀ e ∈ journal, e.newTarget? i = none)
    (target : ∀ h, o.target = some h → S.handle h ∧ (h.signature == o.signature) = true) :
    SiteCell.Follows S i journal o ⟨o.target, 0⟩ where
  target_eq := by
    rw [List.findSome?_eq_none_iff.2 unnoted]
    rfl
  generation_eq := by
    rw [List.countP_eq_zero.2 fun e mem => by simp [Event.retargets, unnoted e mem]]
    rfl
  target := target

theorem newSite_keeps (kind : SiteKind) {signature : Signature} {target : Option Handle}
    (wf : signature.WellFormed)
    (linked : ∀ h, target = some h → σ.scope.handle h ∧ (h.signature == signature) = true) :
    Exec.Keeps σ (newSite kind signature target) fun τ c =>
      τ.Site c ∧ c.kind = kind ∧ c.signature = signature := by
  intro s inWorld
  have grows := σ.grows_addSite ⟨kind, signature, target⟩
  have last : (σ.addSite ⟨kind, signature, target⟩).sites[s.sites.size]? =
      some ⟨kind, signature, target⟩ := by
    rw [inWorld.site_count]
    exact List.getElem?_concat_length
  refine ⟨σ.addSite ⟨kind, signature, target⟩, grows, ?_, ⟨wf, _, last, rfl, rfl⟩, rfl, rfl⟩
  show State.InWorld _ { s with sites := s.sites.push ⟨target, 0⟩ }
  refine { inWorld with
    handles := fun i a found => grows.scope.handle a (inWorld.handles i a found)
    site_count := ?_
    cells := fun i o cell origin found => ?_
    noted := fun c h mem => (inWorld.noted c h mem).imp_left grows.site
    fields := fun o v mem => (inWorld.fields o v mem).mono grows.scope
    caches := fun i c found => (inWorld.caches i c found).mono grows.scope
    links := fun i table found e mem => ?_ }
  · rw [Array.size_push, inWorld.site_count]
    exact (List.length_append : (σ.sites ++ [_]).length = _).symm
  · rw [Array.getElem?_push] at found
    split at found
    · next new =>
      cases found
      rw [new, last] at origin
      cases origin
      refine .new (inWorld.unnoted (Nat.le_of_eq new.symm)) fun h eq => ?_
      obtain ⟨known, same⟩ := linked h eq
      exact ⟨grows.scope.handle _ known, same⟩
    · have inside := (Array.getElem?_eq_some_iff.1 found).1
      have old := List.getElem?_eq_getElem (inWorld.site_count ▸ inside)
      rw [grows.origin old] at origin
      cases origin
      exact (inWorld.cells i _ cell old found).mono grows.scope
  · obtain ⟨site, linked⟩ := inWorld.links i table found e mem
    exact ⟨grows.site site, linked⟩

theorem siteFor_keeps (kind : SiteKind) {target : Handle} (known : σ.scope.handle target) :
    Exec.Keeps σ (siteFor kind target) fun τ c =>
      τ.Site c ∧ c.kind = kind ∧ c.signature = target.signature := by
  have wf := ((σ.scope_complete.handle_iff target).1 known).blueprint.wellFormed
  refine newSite_keeps kind wf fun h eq => ?_
  cases eq
  exact ⟨known, BEq.rfl⟩

namespace CallSite

theorem target_keeps {site : CallSite} (known : σ.Site site) :
    Exec.Keeps σ site.target fun τ h =>
      τ.scope.handle h ∧ (h.signature == site.signature) = true := by
  unfold target
  refine Exec.Keeps.get.bind fun τ s grows inWorld => ?_
  split
  · next h found => exact .pure (inWorld.target (grows.site known) found)
  · exact .refuse

theorem checkRetarget_eq_ok {site : CallSite} {target : Handle}
    (passed : site.checkRetarget target = .ok ()) :
    site.kind ≠ .constant ∧ (target.signature == site.signature) = true := by
  unfold checkRetarget at passed
  split at passed
  · cases passed
  · next other =>
    split at passed
    · cases passed
    · next same => exact ⟨other, by simpa [bne] using same⟩

/-- Another target is counted where it is stored and where it is noted. -/
theorem store_keeps {site : CallSite} {target : Handle} (known : σ.Site site)
    (targetKnown : σ.scope.handle target) (passed : site.checkRetarget target = .ok ()) :
    Exec.Keeps σ (site.store target) fun _ _ => True := by
  obtain ⟨-, same⟩ := checkRetarget_eq_ok passed
  intro s inWorld
  obtain ⟨origin, hsite, -, signature⟩ := known.2
  refine ⟨σ, .refl σ, { inWorld with
    site_count := Array.size_modify.trans inWorld.site_count
    cells := fun i o cell horigin found => ?_
    noted := fun c h mem => ?_ }, trivial⟩
  · change (s.sites.modify site.id fun cell => ⟨some target, cell.generation + 1⟩)[i]? =
      some cell at found
    show cell.Follows σ.scope i (.retargeted site target :: s.journal) o
    rw [Array.getElem?_modify] at found
    split at found
    · next here =>
      subst here
      obtain ⟨old, hold, rfl⟩ := Option.map_eq_some_iff.1 found
      have follows := inWorld.cells _ o old horigin hold
      have noted : (Event.retargeted site target).newTarget? site.id = some target := if_pos rfl
      refine ⟨?_, ?_, fun h eq => ?_⟩
      · rw [List.findSome?_cons, noted]
        rfl
      · rw [List.countP_cons_of_pos (by simp [Event.retargets, noted]), UInt64.ofNat_add,
          ← follows.generation_eq]
        rfl
      · cases eq
        rw [hsite] at horigin
        cases horigin
        exact ⟨targetKnown, signature ▸ same⟩
    · next elsewhere => exact (inWorld.cells i o cell horigin found).skip (if_neg elsewhere)
  · rcases List.mem_cons.1 mem with eq | mem
    · cases eq
      exact ⟨known, passed⟩
    · exact inWorld.noted c h mem

theorem setTargetFenced_keeps {site : CallSite} {target : Handle} (known : σ.Site site)
    (targetKnown : σ.scope.handle target) :
    Exec.Keeps σ (site.setTargetFenced target) fun _ _ => True := by
  unfold setTargetFenced
  have passed : Exec.Keeps σ (Exec.ofExcept (site.checkRetarget target)) fun τ _ =>
      τ = σ ∧ site.checkRetarget target = .ok () :=
    .ofExcept (E := fun _ => True) (Ends.intro (fun _ _ => trivial) fun _ done => ⟨rfl, done⟩)
  refine passed.bind ?_
  rintro τ _ - ⟨rfl, done⟩
  exact store_keeps known targetKnown done

theorem setTargetPlain_keeps {site : CallSite} {target : Handle} (known : σ.Site site)
    (targetKnown : σ.scope.handle target) :
    Exec.Keeps σ (site.setTargetPlain target) fun _ _ => True := by
  unfold setTargetPlain
  split
  · exact setTargetFenced_keeps known targetKnown
  · exact setTargetFenced_keeps known targetKnown

theorem setTarget_keeps {site : CallSite} {target : Handle} (known : σ.Site site)
    (targetKnown : σ.scope.handle target) :
    Exec.Keeps σ (site.setTarget target) fun _ _ => True := by
  unfold setTarget
  split
  · exact setTargetFenced_keeps known targetKnown
  · exact setTargetPlain_keeps known targetKnown
  · exact setTargetPlain_keeps known targetKnown

end CallSite

/-! Caches. -/

namespace SharedHandles

theorem constant_keeps {c : SharedHandles} (complete : S.Complete) (inScope : c.InScope S)
    (kind : Kind) {v : Value} (hv : v.InScope S) :
    Build.Keeps S (c.constant kind v) fun r => S.handle r.1 ∧ r.2.InScope S := by
  unfold constant
  refine (Build.Keeps.ofChecked (Value.coerce_ends v kind).proper).bind fun w fitted => ?_
  have made := Build.accept_keeps complete
    (Blueprint.constant_scoped kind (Value.inScope_of_coerce hv fitted))
  dsimp only
  split
  · exact made.bind fun h known => .pure ⟨known, inScope⟩
  · split
    · next shared found =>
      obtain ⟨e, mem, rfl⟩ := exists_mem_of_lookup found
      exact .pure ⟨inScope.constants e mem, inScope⟩
    · exact made.bind fun h known => .pure
        ⟨known, List.forall_mem_cons.2 ⟨known, inScope.constants⟩, inScope.identities⟩

theorem identity_keeps {c : SharedHandles} (complete : S.Complete) (inScope : c.InScope S)
    (kind : Kind) :
    Build.Keeps S (c.identity kind) fun r => S.handle r.1 ∧ r.2.InScope S := by
  unfold identity
  split
  · next shared found =>
    obtain ⟨e, mem, rfl⟩ := exists_mem_of_lookup found
    exact .pure ⟨inScope.identities e mem, inScope⟩
  · exact (Build.accept_keeps complete (Blueprint.identity_scoped kind)).bind fun h known => .pure
      ⟨known, inScope.constants, List.forall_mem_cons.2 ⟨known, inScope.identities⟩⟩

end SharedHandles

theorem storeCache_keeps {cache : Nat} {updated : SharedHandles}
    (inScope : updated.InScope σ.scope) :
    Exec.Keeps σ (modify fun s => { s with caches := s.caches.setIfInBounds cache updated })
      fun τ _ => τ = σ := by
  refine fun s inWorld => ⟨σ, .refl σ, { inWorld with
    cache_count := Array.size_setIfInBounds.trans inWorld.cache_count
    caches := fun i c found => ?_ }, rfl⟩
  change (s.caches.setIfInBounds cache updated)[i]? = some c at found
  rw [Array.getElem?_setIfInBounds] at found
  split at found
  · split at found
    · cases found
      exact inScope
    · cases found
  · exact inWorld.caches i c found

theorem withCache_keeps {cache : Nat} {f : SharedHandles → Build (Handle × SharedHandles)}
    (known : cache < σ.caches)
    (h : ∀ c, c.InScope σ.scope →
      Build.Keeps σ.scope (f c) fun r => σ.scope.handle r.1 ∧ r.2.InScope σ.scope) :
    Exec.Keeps σ (withCache cache f) fun τ a => τ.scope.handle a := by
  intro s inWorld
  have inside : cache < s.caches.size := inWorld.cache_count ▸ known
  have found := Array.getElem?_eq_getElem inside
  have rest : Exec.Keeps σ (do
      let made ← Exec.ofBuild (f s.caches[cache])
      modify fun s => { s with caches := s.caches.setIfInBounds cache made.2 }
      return made.1 : Exec Handle) fun τ a => τ.scope.handle a := by
    refine (Exec.Keeps.ofBuild (h _ (inWorld.caches _ _ found))).bind ?_
    rintro τ ⟨a, updated⟩ - ⟨rfl, made, inScope⟩
    refine (storeCache_keeps inScope).bind ?_
    rintro ρ _ - rfl
    exact .pure made
  unfold withCache
  rw [bind_get, found]
  exact rest s inWorld

theorem clearCache_keeps (cache : Nat) : Exec.Keeps σ (clearCache cache) fun _ _ => True :=
  (storeCache_keeps ⟨List.forall_mem_nil _, List.forall_mem_nil _⟩).imp fun _ _ _ _ => trivial

/-! Registries and lookups. -/

/-- A change of one registry, whose static members have signatures afterwards as before. -/
theorem changeRegistry_keeps {registry : Nat} {f : Registry → Registry}
    (h : ∀ r : Registry, (∀ e ∈ r.statics, e.2.signature.WellFormed) →
      ∀ e ∈ (f r).statics, e.2.signature.WellFormed) :
    Exec.Keeps σ (modify fun s => { s with registries := s.registries.modify registry f })
      fun _ _ => True := by
  refine .change fun s inWorld => { inWorld with
    registry_count := Array.size_modify.trans inWorld.registry_count
    statics := fun i r found => ?_ }
  rw [Array.getElem?_modify] at found
  split at found
  · obtain ⟨old, hold, rfl⟩ := Option.map_eq_some_iff.1 found
    exact h old (inWorld.statics _ old hold)
  · exact inWorld.statics i r found

theorem registerStatic_keeps {registry : Nat} {owner name : String} {member : StaticMember}
    (wf : member.signature.WellFormed) :
    Exec.Keeps σ (registerStatic registry owner name member) fun _ _ => True :=
  changeRegistry_keeps fun _ before => List.forall_mem_cons.2
    ⟨wf, fun e mem => before e (List.mem_of_mem_filter mem)⟩

theorem registerClass_keeps (registry : Nat) (c : ClassDef) :
    Exec.Keeps σ (registerClass registry c) fun _ _ => True :=
  changeRegistry_keeps fun _ before => before

/-- A found member can be made a handle of. -/
theorem Registry.resolve_scoped {r : Registry} (S : Scope) (caller : String)
    (request : MemberRequest) (statics : ∀ e ∈ r.statics, e.2.signature.WellFormed) :
    Ends (·.isStatic = true)
      (fun member => member.signature.WellFormed ∧
        member.action.Scoped S member.signature.arity)
      (r.resolve caller request) := by
  unfold resolve
  split
  · split
    · rfl
    · next member found =>
      refine (checkAccess_ends _ _ _).bind fun _ _ => ?_
      obtain ⟨e, mem, rfl⟩ := exists_mem_of_lookup found
      exact ⟨statics e mem, trivial⟩
  · refine (r.owner_ends request).bind fun c _ => ?_
    split
    · rfl
    · refine (checkAccess_ends _ _ _).bind fun _ _ => ?_
      exact (Signature.replaceParams_ends _ _ _ _).bind fun s spec => ⟨spec.2.2.2, trivial⟩
  · refine (r.owner_ends request).bind fun c _ => (field_ends c request).bind fun kind _ => ?_
    exact (Signature.make_ends _ _).bind fun s spec => ⟨spec.2, trivial⟩
  · refine (r.owner_ends request).bind fun c _ => (field_ends c request).bind fun kind _ => ?_
    exact (Signature.make_ends _ _).bind fun s spec => ⟨spec.2, trivial⟩
  · refine (r.owner_ends request).bind fun c _ => ?_
    exact (Signature.make_ends _ _).bind fun s spec => ⟨spec.2, trivial⟩

namespace Lookup

theorem checkGate_keeps (l : Lookup) (request : MemberRequest) :
    Exec.Keeps σ (l.checkGate request) fun _ _ => True := by
  unfold checkGate
  split
  · refine (record_keeps fun _ => rfl).bind fun _ _ _ _ => ?_
    exact .ofExcept (E := fun _ => True) (Ends.intro (fun _ _ => trivial) fun _ _ => trivial)
  · exact .pure trivial

theorem find_keeps {l : Lookup} (known : l.registry < σ.registries) (request : MemberRequest) :
    Exec.Keeps σ (l.find request) fun τ h => τ.scope.handle h := by
  unfold find
  refine (checkGate_keeps l request).bind fun τ _ grows _ => ?_
  refine Exec.Keeps.get.bind fun τ' s grows' inWorld => ?_
  have inside : l.registry < s.registries.size := by
    rw [inWorld.registry_count]
    exact Nat.lt_of_lt_of_le known (grows.trans grows').registries
  have found := Array.getElem?_eq_getElem inside
  refine Exec.Keeps.bind (P := fun τ r => τ = τ' ∧ r = s.registries[l.registry])
    (.ofSome ⟨_, found, rfl, rfl⟩) ?_
  rintro τ'' r - ⟨rfl, rfl⟩
  have resolved := Registry.resolve_scoped τ''.scope l.caller request
    (inWorld.statics _ _ found)
  refine Exec.Keeps.bind (P := fun τ member => member.signature.WellFormed ∧
    member.action.Scoped τ.scope member.signature.arity) (.ofExcept resolved)
    fun ρ member _ fits => ?_
  have handle : Exec.Keeps ρ (Exec.ofBuild (Blueprint.ofAction member.signature
      member.action).make) fun τ h => τ.scope.handle h :=
    .ofBuild_handle (Blueprint.make_keeps ρ.scope_complete
      (Blueprint.ofAction_scoped fits.1 fits.2))
  dsimp only
  split
  · exact .check fun _ => handle
  · exact handle

theorem findMember_keeps {l : Lookup} (known : l.registry < σ.registries) (query : MemberQuery) :
    Exec.Keeps σ (l.findMember query) fun τ h => τ.scope.handle h := by
  unfold findMember
  exact (find_keeps known _).bind fun _ _ _ known => .check fun _ => .pure known

end Lookup

/-! Linkers. -/

namespace Linker

/-- A result that is accepted stands for a site of the signature of the call point. -/
theorem accept_keeps {l : Linker} {d : Descriptor} {v : Value} (inScope : v.InScope σ.scope) :
    Exec.Keeps σ (l.accept d v) fun τ c =>
      τ.Site c ∧ (c.signature == d.signature) = true := by
  have checked : ∀ found, Exec.Keeps σ (Exec.ofExcept (checkSignature d found)) fun τ _ =>
      τ = σ ∧ (found == d.signature) = true :=
    fun found => .ofExcept ((checkSignature_ends d found).imp fun _ same => ⟨rfl, same⟩)
  unfold accept
  split
  · next site =>
    refine (checked _).bind ?_
    rintro τ _ - ⟨rfl, same⟩
    exact .pure ⟨Value.inScope_callSite_iff.1 inScope, same⟩
  · next h =>
    split
    · refine (checked _).bind ?_
      rintro τ _ - ⟨rfl, same⟩
      refine (siteFor_keeps .constant (Value.inScope_handle_iff.1 inScope)).imp
        fun ρ c _ made => ⟨made.1, ?_⟩
      rw [made.2.2]
      exact same
    · exact .refuse
  · exact .refuse

theorem resolve_keeps {l : Linker} {d : Descriptor} {x : Exec Value}
    (hx : Exec.Keeps σ x fun τ v => v.InScope τ.scope) :
    Exec.Keeps σ (l.resolve d x) fun τ c => τ.Site c ∧ (c.signature == d.signature) = true := by
  unfold resolve
  refine hx.attempt.bind fun τ answer _ ends => ?_
  cases answer with
  | ok v => exact accept_keeps ends
  | error cause => exact .refuse

/-- What is known of the site of a call point. -/
def Typed (σ : World) (l : Linker) (point : UInt64) (c : CallSite) : Prop :=
  σ.Site c ∧ ∃ d, σ.point l.id point d ∧ (c.signature == d) = true

theorem linked?_typed {l : Linker} {s : State} (inWorld : s.InWorld σ) {point : UInt64}
    {site : CallSite} (found : l.linked? s point = some site) : l.Typed σ point site := by
  unfold linked? table at found
  rw [List.lookup_eq_findSome?] at found
  obtain ⟨e, mem, here⟩ := List.exists_of_findSome?_eq_some found
  split at here
  · next same =>
    cases here
    cases htable : s.linkers[l.id]? with
    | none =>
      rw [htable] at mem
      cases mem
    | some table =>
      rw [htable] at mem
      have linked := inWorld.links _ _ htable e mem
      rw [← beq_iff_eq.1 same] at linked
      exact linked
  · cases here

/-- A change of a linker's table to one whose sites may be linked. -/
theorem changeTable_inWorld {l : Linker} {s : State} (inWorld : s.InWorld σ)
    {f : LinkTable → LinkTable}
    (h : ∀ table, (∀ e ∈ table, l.Typed σ e.1 e.2) → ∀ e ∈ f table, l.Typed σ e.1 e.2) :
    { s with linkers := s.linkers.modify l.id f }.InWorld σ := by
  refine { inWorld with links := fun i table found => ?_ }
  rw [Array.getElem?_modify] at found
  split at found
  · next here =>
    subst here
    obtain ⟨old, hold, rfl⟩ := Option.map_eq_some_iff.1 found
    exact h old (inWorld.links _ old hold)
  · exact inWorld.links i table found

theorem publish_keeps {l : Linker} {point : UInt64} {site : CallSite}
    (typed : l.Typed σ point site) :
    Exec.Keeps σ (l.publish point site) fun τ => l.Typed τ point := by
  intro s inWorld
  unfold publish
  split
  · next published found => exact ⟨σ, .refl σ, inWorld, linked?_typed inWorld found⟩
  · have changed := changeTable_inWorld (l := l) (f := ((point, site) :: ·)) inWorld
      fun table old => List.forall_mem_cons.2 ⟨typed, old⟩
    obtain ⟨τ, grows, inWorld', -⟩ :=
      record_keeps (e := .published l.id point site) (fun _ => rfl) _ changed
    exact ⟨τ, grows, inWorld', grows.site typed.1, by
      obtain ⟨d, known, same⟩ := typed.2
      exact ⟨d, grows.point ▸ known, same⟩⟩

theorem link_keeps {l : Linker} {point : UInt64} {d : Descriptor} {x : Exec Value}
    (known : σ.point l.id point d.signature)
    (hx : ∀ τ, σ.Grows τ → Exec.Keeps τ x fun ρ v => v.InScope ρ.scope) :
    Exec.Keeps σ (l.link point d x) fun τ => l.Typed τ point := by
  unfold link
  refine Exec.Keeps.get.bind fun τ s grows inWorld => ?_
  split
  · next site found => exact .pure (linked?_typed inWorld found)
  · refine (resolve_keeps (hx τ grows)).bind fun ρ site grows' made => publish_keeps ?_
    refine ⟨made.1, d.signature, ?_, made.2⟩
    rw [grows'.point, grows.point]
    exact known

theorem unregister_keeps (l : Linker) (point : UInt64) :
    Exec.Keeps σ (l.unregister point) fun τ found => ∀ c, found = some c → τ.Site c := by
  intro s inWorld
  unfold unregister
  split
  · next site found =>
    have changed := changeTable_inWorld (l := l) (f := (·.filter (·.1 != point))) inWorld
      fun table old e mem => old e (List.mem_of_mem_filter mem)
    obtain ⟨τ, grows, inWorld', -⟩ :=
      record_keeps (e := .forgotten l.id point site) (fun _ => rfl) _ changed
    refine ⟨τ, grows, inWorld', fun c same => ?_⟩
    cases same
    exact grows.site (linked?_typed inWorld found).1
  · exact ⟨σ, .refl σ, inWorld, nofun⟩

end Linker

/-- A counter of the host is read and moved on. -/
theorem count_keeps {counter : Nat} (known : counter < σ.counters) :
    Exec.Keeps σ (do
      let found ← Exec.ofOption (← get).counters[counter]?
      modify fun s => { s with counters := s.counters.setIfInBounds counter (found + 1) }
      return .long (.ofNat found) : Exec Value) fun τ v => v.InScope τ.scope := by
  refine Exec.Keeps.get.bind fun τ s grows inWorld => ?_
  have inside : counter < s.counters.size := by
    rw [inWorld.counter_count]
    exact Nat.lt_of_lt_of_le known grows.counters
  refine Exec.Keeps.bind (P := fun _ _ => True)
    (.ofSome ⟨_, Array.getElem?_eq_getElem inside, trivial⟩) fun _ found _ _ => ?_
  refine Exec.Keeps.bind (P := fun _ _ => True) (.change fun s inWorld => { inWorld with
    counter_count := Array.size_setIfInBounds.trans inWorld.counter_count })
    fun _ _ _ _ => .pure (.plain rfl)

end TypedHandles
