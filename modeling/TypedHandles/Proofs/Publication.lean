import TypedHandles.Proofs.Course

/-!
How linkers publish call sites. Over any run the entry of a point goes from nothing to a site only
by the end of a link, and from a site to nothing only when the point is unregistered; it never goes
from one site to another, whatever the bootstraps do to the linker while they run.
-/
namespace TypedHandles

/-- Whether an event is the change of a linker's entry for a point. -/
def Event.Concerns (linker : Nat) (point : UInt64) : Event → Prop
  | .published l p _ | .forgotten l p _ => l = linker ∧ p = point
  | _ => False

theorem Event.not_concerns {e : Event} (plain : e.isUpdate = false) {linker : Nat}
    {point : UInt64} : ¬ e.Concerns linker point := by
  cases e with
  | published | forgotten | retargeted => cases plain
  | native | gate | bootstrap | ended => exact fun concerns => concerns

namespace Linker

/-- How the entry of a point evolves with the events of a run, the latest first. A site is published
where there is none, right after a bootstrap returned what it stands for, and the site that is there
is forgotten. -/
inductive Evolves (l : Linker) (point : UInt64) (before : Option CallSite) :
    List Event → Option CallSite → Prop
  | start : Evolves l point before [] before
  | other {es : List Event} {entry : Option CallSite} {e : Event} :
      Evolves l point before es entry → ¬ e.Concerns l.id point →
      Evolves l point before (e :: es) entry
  | publish {es : List Event} {v : Value} {site : CallSite} :
      Evolves l point before (.ended (.ok v) :: es) none → v.StandsFor site →
      Evolves l point before (.published l.id point site :: .ended (.ok v) :: es) (some site)
  | forget {es : List Event} {site : CallSite} : Evolves l point before es (some site) →
      Evolves l point before (.forgotten l.id point site :: es) none

variable {l : Linker} {s t : State} {point : UInt64} {site : CallSite}

/-- A site stays linked until its point is unregistered, whatever is linked meanwhile. -/
theorem Evolves.stays {es : List Event} {entry : Option CallSite}
    (evolves : l.Evolves point (some site) es entry)
    (kept : ∀ e ∈ es, ∀ other, e ≠ .forgotten l.id point other) : entry = some site := by
  induction evolves with
  | start => rfl
  | other _ _ ih => exact ih fun e mem => kept e (List.mem_cons_of_mem _ mem)
  | publish _ _ ih => cases ih fun e mem => kept e (List.mem_cons_of_mem _ mem)
  | @forget _ found => exact absurd rfl (kept _ List.mem_cons_self found)

/-! Tables. -/

theorem lookup_of_ne {table : LinkTable} {p : UInt64} (other : p ≠ point) :
    ((p, site) :: table).lookup point = table.lookup point := by
  rw [List.lookup_cons, beq_eq_false_iff_ne.2 (Ne.symm other)]

theorem lookup_filter (table : LinkTable) (p : UInt64) :
    (table.filter (·.1 != p)).lookup point = if p = point then none else table.lookup point := by
  induction table with
  | nil => simp
  | cons e rest ih =>
    obtain ⟨q, found⟩ := e
    by_cases removed : q = p
    · subst removed
      rw [List.filter_cons_of_neg (by simp), ih]
      by_cases same : q = point
      · rw [if_pos same, if_pos same]
      · rw [if_neg same, if_neg same, lookup_of_ne same]
    · rw [List.filter_cons_of_pos (by simpa using removed)]
      by_cases same : q = point
      · subst same
        rw [if_neg (Ne.symm removed), List.lookup_cons_self, List.lookup_cons_self]
      · rw [lookup_of_ne same, lookup_of_ne same, ih]

/-- Only the number of a linker tells its table. -/
theorem linked?_congr {l' : Linker} (same : l'.id = l.id) :
    l'.linked? s point = l.linked? s point := by
  unfold linked? table
  rw [same]

theorem linked?_publish (inside : l.id < s.linkers.size) (id : Nat) (p : UInt64)
    (journal : List Event) :
    l.linked? { s with
      linkers := s.linkers.modify id ((p, site) :: ·), journal := journal } point =
      if id = l.id ∧ p = point then some site else l.linked? s point := by
  unfold linked? table
  dsimp only
  rw [Array.getElem?_modify]
  by_cases own : id = l.id
  · by_cases same : p = point
    · simp [own, same, inside]
    · simp [own, same, inside, lookup_of_ne same]
  · simp [own]

theorem linked?_forget (id : Nat) (p : UInt64) (journal : List Event) :
    l.linked? { s with
      linkers := s.linkers.modify id (·.filter (·.1 != p)), journal := journal } point =
      if id = l.id ∧ p = point then none else l.linked? s point := by
  unfold linked? table
  dsimp only
  rw [Array.getElem?_modify]
  by_cases own : id = l.id
  · rw [if_pos own]
    cases s.linkers[l.id]? with
    | none => simp
    | some table => simp [own, lookup_filter]
  · rw [if_neg own, if_neg fun both => own both.1]

end Linker

/-! Runs. -/

theorem State.Change.linkers {s t : State} (changed : s.Change t) : t.linkers = s.linkers := by
  cases changed <;> rfl

namespace Linker

variable {l : Linker} {s t : State} {point : UInt64} {site : CallSite}

/-- What the entry of a point is at the end of a course, by the events on it. -/
theorem evolves_of_course {es : List Event} (course : s.Course es t)
    (inside : l.id < s.linkers.size) :
    l.Evolves point (l.linked? s point) es (l.linked? t point) ∧ l.id < t.linkers.size := by
  induction course with
  | start => exact ⟨.start, inside⟩
  | @change es t u _ changed ih =>
    have same : l.linked? u point = l.linked? t point := by
      unfold linked? table
      rw [changed.linkers]
    rw [same, changed.linkers]
    exact ih
  | @record es t e _ plain ih =>
    exact ⟨.other ih.1 (Event.not_concerns plain), ih.2⟩
  | @publish es t l' p v site _ stands absent ih =>
    obtain ⟨evolves, inside⟩ := ih
    rw [linked?_publish inside, Array.size_modify]
    refine ⟨?_, inside⟩
    by_cases own : l'.id = l.id ∧ p = point
    · rw [if_pos own]
      obtain ⟨same, rfl⟩ := own
      rw [linked?_congr same] at absent
      rw [absent] at evolves
      rw [same]
      exact .publish evolves stands
    · rw [if_neg own]
      exact .other evolves own
  | @forget es t l' p site _ found ih =>
    obtain ⟨evolves, inside⟩ := ih
    rw [linked?_forget, Array.size_modify]
    refine ⟨?_, inside⟩
    by_cases own : l'.id = l.id ∧ p = point
    · rw [if_pos own]
      obtain ⟨same, rfl⟩ := own
      rw [linked?_congr same] at found
      rw [found] at evolves
      rw [same]
      exact .forget evolves
    · rw [if_neg own]
      exact .other evolves own
  | retarget site target _ _ ih => exact ⟨.other ih.1 fun concerns => concerns, ih.2⟩

/-! One link. -/

variable {d : Descriptor} {bootstrap : Exec Value}

theorem link_of_linked (found : l.linked? s point = some site) (d : Descriptor)
    (bootstrap : Exec Value) : l.link point d bootstrap s = (.ok site, s) := by
  have read : (MonadState.get : Exec State) s = (.ok s, s) := rfl
  unfold link
  rw [bind_of_ok read, found]
  rfl

theorem link_of_unlinked (absent : l.linked? s point = none) (d : Descriptor)
    (bootstrap : Exec Value) :
    l.link point d bootstrap s = (l.resolve d bootstrap >>= l.publish point) s := by
  have read : (MonadState.get : Exec State) s = (.ok s, s) := rfl
  unfold link
  rw [bind_of_ok read, absent]

/-- What a bootstrap failed with is wrapped once, unless it is fatal. -/
theorem resolve_of_failed {cause : Failure} (failed : bootstrap s = (.error (.failed cause), t)) :
    l.resolve d bootstrap s = (.error (.failed
      (if cause.isFatal then cause else .bootstrapLinkage d.name cause)), t) := by
  have attempted := Exec.attempt_apply bootstrap s
  rw [failed] at attempted
  exact bind_of_ok attempted

theorem accept_linkers (v : Value) : (l.accept d v s).2.linkers = s.linkers := by
  unfold accept checkSignature
  split
  · split <;> rfl
  · split
    · split <;> rfl
    · rfl
  · rfl

/-- Only the bootstrap itself may change a table while a point is resolved. -/
theorem resolve_linkers : (l.resolve d bootstrap s).2.linkers = (bootstrap s).2.linkers := by
  have attempted := Exec.attempt_apply bootstrap s
  unfold resolve
  match result : bootstrap s with
  | (.ok v, t) =>
    rw [result] at attempted
    rw [bind_of_ok attempted]
    exact accept_linkers v
  | (.error (.failed cause), t) =>
    rw [result] at attempted
    rw [bind_of_ok attempted]
    rfl
  | (.error .stuck, t) | (.error .exhausted, t) =>
    rw [result] at attempted
    rw [bind_of_error attempted]

theorem publish_of_linked {first : CallSite} (found : l.linked? s point = some first)
    (own : CallSite) : l.publish point own s = (.ok first, s) := by
  unfold publish
  rw [found]

theorem publish_of_unlinked (absent : l.linked? s point = none) (own : CallSite) :
    l.publish point own s = (.ok own, { s with
      linkers := s.linkers.modify l.id ((point, own) :: ·)
      journal := .published l.id point own :: s.journal }) := by
  unfold publish
  rw [absent]

theorem unregister_eq (l : Linker) (s : State) (point : UInt64) :
    (l.unregister point s).1 = .ok (l.linked? s point) ∧
      l.linked? (l.unregister point s).2 point = none := by
  unfold unregister
  cases found : l.linked? s point with
  | none => exact ⟨rfl, found⟩
  | some site => exact ⟨rfl, by rw [linked?_forget, if_pos ⟨rfl, rfl⟩]⟩

end Linker

theorem State.Course.journal {s t : State} {es : List Event} (course : s.Course es t) :
    t.journal = es ++ s.journal := by
  induction course with
  | start => rfl
  | change _ changed ih => cases changed <;> exact ih
  | record e _ _ ih => exact congrArg (e :: ·) ih
  | publish l point _ _ _ ih =>
    dsimp only
    rw [ih]
    rfl
  | forget l point _ _ ih =>
    dsimp only
    rw [ih]
    rfl
  | retarget site target _ _ ih => exact congrArg (.retargeted site target :: ·) ih

/-- The publication protocol of a linker. Whatever host code does, the entry of a point evolves with
the recorded events, and it stays where it is not forgotten. A link yields the site that is there;
where there is none it runs the bootstrap, and publishes the resolved site unless the bootstrap has
published one meanwhile, or reports why it was not resolved and writes nothing. -/
theorem Linker.publication_protocol {l : Linker} {s : State} (made : l.id < s.linkers.size)
    (host : Host) (n : Nat) (task : HostTask) (point : UInt64) (d : Descriptor)
    (bootstrap : Exec Value) :
    (∃ es t, (task.run (runCode host n) s).2 = t ∧ t.journal = es ++ s.journal ∧
      l.Evolves point (l.linked? s point) es (l.linked? t point) ∧
      ∀ site, l.linked? s point = some site →
        (∀ e ∈ es, ∀ other, e ≠ .forgotten l.id point other) → l.linked? t point = some site) ∧
    (∀ site, l.linked? s point = some site → l.link point d bootstrap s = (.ok site, s)) ∧
    (l.linked? s point = none →
      (∀ e t, l.resolve d bootstrap s = (.error e, t) →
        l.link point d bootstrap s = (.error e, t)) ∧
      ∀ own t, l.resolve d bootstrap s = (.ok own, t) →
        (∀ first, l.linked? t point = some first →
          l.link point d bootstrap s = (.ok first, t)) ∧
        (l.linked? t point = none → l.link point d bootstrap s = (.ok own, { t with
          linkers := t.linkers.modify l.id ((point, own) :: ·)
          journal := .published l.id point own :: t.journal }))) ∧
    (l.resolve d bootstrap s).2.linkers = (bootstrap s).2.linkers ∧
    (∀ cause t, bootstrap s = (.error (.failed cause), t) →
      l.resolve d bootstrap s = (.error (.failed
        (if cause.isFatal then cause else .bootstrapLinkage d.name cause)), t)) ∧
    (l.unregister point s).1 = .ok (l.linked? s point) ∧
    l.linked? (l.unregister point s).2 point = none := by
  obtain ⟨es, course, -⟩ := HostTask.run_courses task (runCode_courses host n) s
  obtain ⟨evolves, -⟩ := @evolves_of_course l s _ point es course made
  refine ⟨⟨es, _, rfl, course.journal, evolves, fun site found => ?_⟩,
    fun site found => link_of_linked found d bootstrap, fun absent => ?_, resolve_linkers,
    fun cause t failed => resolve_of_failed failed, l.unregister_eq s point⟩
  · rw [found] at evolves
    exact evolves.stays
  · rw [link_of_unlinked absent]
    refine ⟨fun e t failed => bind_of_error failed, fun own t resolved => ?_⟩
    rw [bind_of_ok resolved]
    exact ⟨fun first found => publish_of_linked found own,
      fun unlinked => publish_of_unlinked unlinked own⟩

/-- A bootstrap that makes a site without a target. -/
def HostTask.placing : Bootstrap := fun _ d => .last (.newUnlinkedSite .mutable d.signature)

/-- The same bootstrap, but it links a point of a linker by itself first. -/
def HostTask.linking (l : Linker) (point : UInt64) : Bootstrap := fun lookup d =>
  .ask (.link l point d HostTask.placing) fun _ => HostTask.placing lookup d

/-- A linker whose bootstrap links the same point: the site of the inner link is published, and the
outer link yields it and discards its own. -/
theorem Linker.publication_protocol_reentrant :
    let l : Linker := ⟨0, ⟨"Main", 0, none, 0⟩, .default⟩
    let d : Descriptor := ⟨"point", ⟨.void, []⟩, []⟩
    let asked : Event := .bootstrap "Main" d.name d.signature d.staticArgs
    let first : CallSite := ⟨0, .mutable, d.signature⟩
    let second : CallSite := ⟨1, .mutable, d.signature⟩
    let host : Host := fun _ _ => .value .void
    let s : State := { State.empty with linkers := #[[]] }
    l.id < s.linkers.size ∧ ∃ es t,
      (HostTask.last (.link l 7 d (.linking l 7))).run (runCode host 1) s =
        (.ok (.callSite first), t) ∧
      l.Evolves 7 none es (some first) ∧
      es = [.ended (.ok (.callSite first)), .ended (.ok (.callSite second)),
        .published l.id 7 first, .ended (.ok (.callSite first)), asked, asked] ∧
      l.link 7 d (Exec.refuse (.fatal "not run")) t = (.ok first, t) := by
  intro l d asked first second host s
  have made : l.id < s.linkers.size := by decide
  let task := HostTask.last (.link l 7 d (.linking l 7))
  let t := (task.run (runCode host 1) s).2
  have ran : task.run (runCode host 1) s = (.ok (.callSite first), t) := Prod.ext rfl rfl
  obtain ⟨⟨es, _, rfl, grown, evolves, -⟩, -⟩ :=
    Linker.publication_protocol made host 1 task 7 d (Exec.refuse (.fatal "not run"))
  have still : l.id < t.linkers.size := by decide
  obtain ⟨-, linked, -⟩ :=
    Linker.publication_protocol still host 1 task 7 d (Exec.refuse (.fatal "not run"))
  have entry : l.linked? t 7 = some first := rfl
  have journal : t.journal = [.ended (.ok (.callSite first)), .ended (.ok (.callSite second)),
    .published l.id 7 first, .ended (.ok (.callSite first)), asked, asked] := rfl
  rw [show s.journal = [] from rfl, List.append_nil] at grown
  rw [show l.linked? s 7 = none from rfl] at evolves
  exact ⟨made, es, t, ran, entry ▸ evolves, grown.symm.trans journal, linked first entry⟩

end TypedHandles
