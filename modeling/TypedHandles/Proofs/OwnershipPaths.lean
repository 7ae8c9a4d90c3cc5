import TypedHandles.Proofs.ClosedStates

/-!
How one closed state becomes another. On a path things are made, which changes nothing of what was
there, and cells are written into. Making closes no circle; a write does if what it puts into the
cell leads back to it. So along a path from an acyclic state there is no circle unless one of the
writes closed it (`State.Path.acyclic`).

`Exec.Stays` is the triple of computations that take such a path. `L` says whether a computation may
write into a cell itself.
-/
namespace TypedHandles

variable {W L : Prop} {s t u : State} {cell : Node} {added : List Node}

/-! Paths. -/

/-- A write: what was put into a cell, and the state before. -/
structure Link where
  before : State
  cell : Node
  added : List Node

/-- The cell was reached from what was put into it. -/
def Link.Closes (l : Link) : Prop := ∃ n ∈ l.added, l.before.Reaches n l.cell

namespace State

/-- A change that leaves everything in the cells there are. Besides the cells anything may change,
as long as the state stays closed. -/
inductive Makes (W : Prop) (s : State) : State → Prop
  | beside {t : State} : t.objects = s.objects → t.suppressed = s.suppressed →
      t.sites = s.sites → t.Closed W → Makes W s t
  | object (fields : List Value) : (∀ v ∈ fields, v.Within W s) →
      Makes W s { s with objects := s.objects.push fields }
  | throwable : Makes W s { s with suppressed := s.suppressed.push [] }
  | site (target : Option Handle) : (∀ h ∈ target, h.Within W s) →
      Makes W s { s with sites := s.sites.push ⟨target, 0⟩ }

/-- A write into a cell: into a field of an object, among what a throwable has suppressed, or as the
target of a call site that may have it. -/
inductive Writes (W : Prop) (s : State) : Node → List Node → State → Prop
  | field (o : ObjectRef) (index : Nat) (v : Value) : index < (s.fields o).length →
      v.Within W s → Writes W s (.object o.id) v.node?.toList
        { s with objects := s.objects.setIfInBounds o.id ((s.fields o).set index v) }
  | suppressed (t other : Throwable) : t.id < s.suppressed.size →
      other.id < s.suppressed.size → Writes W s (.throwable t.id) [.throwable other.id]
        { s with suppressed := s.suppressed.setIfInBounds t.id (s.suppressedBy t ++ [other]) }
  | target (site : CallSite) (h : Handle) : site.id < s.sites.size →
      site.checkRetarget h = .ok () → h.Within W s → Writes W s (.site site.id) [.handle h]
        { s with
          sites := s.sites.modify site.id fun cell => ⟨some h, cell.generation + 1⟩ }

/-- A path from one state to another, with the writes on it, the latest first. -/
inductive Path (W : Prop) (s : State) : List Link → State → Prop
  | start : Path W s [] s
  | made {links : List Link} {t u : State} : Path W s links t → t.Makes W u → Path W s links u
  | written {links : List Link} {t u : State} {cell : Node} {added : List Node} :
      Path W s links t → t.Writes W cell added u → Path W s (⟨t, cell, added⟩ :: links) u

theorem Path.trans {links links' : List Link} (first : s.Path W links t)
    (second : t.Path W links' u) : s.Path W (links' ++ links) u := by
  induction second with
  | start => exact first
  | made _ makes ih => exact .made ih makes
  | written _ writes ih => exact .written ih writes

theorem Makes.grows (makes : s.Makes W t) : s.Grows t := by
  cases makes with
  | beside objects throwables sites =>
    exact ⟨objects ▸ Nat.le_refl _, throwables ▸ Nat.le_refl _, sites ▸ Nat.le_refl _⟩
  | object => exact ⟨by simp, Nat.le_refl _, Nat.le_refl _⟩
  | throwable => exact ⟨Nat.le_refl _, by simp, Nat.le_refl _⟩
  | site => exact ⟨Nat.le_refl _, Nat.le_refl _, by simp⟩

theorem Writes.grows (writes : s.Writes W cell added t) : s.Grows t := by
  cases writes <;> constructor <;> simp

theorem Path.grows {links : List Link} (path : s.Path W links t) : s.Grows t := by
  induction path with
  | start => exact .refl s
  | made _ makes ih => exact ih.trans makes.grows
  | written _ writes ih => exact ih.trans writes.grows

/-- A write puts something that exists into a cell. -/
theorem Writes.rewrites (writes : s.Writes W cell added t) :
    s.Rewrites cell added t ∧ ∀ m ∈ added, m.Within W s := by
  cases writes with
  | field o index v inside within =>
    exact ⟨s.rewrites_setField v inside, fun m mem => within m (Option.mem_toList.1 mem)⟩
  | suppressed t other there exist =>
    refine ⟨s.rewrites_suppress other there, ?_⟩
    rw [List.forall_mem_singleton]
    exact Node.within_throwable_iff.2 exist
  | target site h there _ within =>
    refine ⟨s.rewrites_setTarget h there, ?_⟩
    rw [List.forall_mem_singleton]
    exact within

theorem Writes.closed (writes : s.Writes W cell added t) (closed : s.Closed W) : t.Closed W := by
  obtain ⟨rewrites, within⟩ := writes.rewrites
  refine closed.rewritten rewrites writes.grows within ?_ ?_ ?_ <;> cases writes <;> rfl

/-- What refers to what exists may be put into a cell that does not exist yet. -/
theorem Closed.acyclic_of_fresh (closed : s.Closed W) (rewrites : s.Rewrites cell added t)
    (within : ∀ m ∈ added, m.Within W s) (fresh : ¬ cell.Exists W s) (acyclic : s.Acyclic) :
    t.Acyclic :=
  (rewrites.acyclic_iff acyclic).2 fun m mem way =>
    fresh (closed.reaches (within m mem) way).exists

/-- Making keeps a state closed, and closes no circle. -/
theorem Makes.kept (makes : s.Makes W t) (closed : s.Closed W) :
    t.Closed W ∧ (s.Acyclic → t.Acyclic) := by
  have grows := makes.grows
  cases makes with
  | beside objects throwables sites closed' =>
    exact ⟨closed', (acyclic_congr (held_eq objects throwables sites)).2⟩
  | object fields within =>
    have within : ∀ m ∈ fields.filterMap Value.node?, m.Within W s := by
      intro m mem
      obtain ⟨v, memv, found⟩ := List.mem_filterMap.1 mem
      exact within v memv m found
    have rewrites := s.rewrites_newObject fields
    exact ⟨closed.rewritten rewrites grows within rfl rfl rfl,
      closed.acyclic_of_fresh rewrites within (Nat.lt_irrefl _)⟩
  | throwable =>
    have rewrites := s.rewrites_newThrowable
    exact ⟨closed.rewritten rewrites grows (List.forall_mem_nil _) rfl rfl rfl,
      closed.acyclic_of_fresh rewrites (List.forall_mem_nil _) (Nat.lt_irrefl _)⟩
  | site target within =>
    have within : ∀ m ∈ target.toList.map Node.handle, m.Within W s := by
      intro m mem
      obtain ⟨h, memh, rfl⟩ := List.mem_map.1 mem
      exact within h (Option.mem_toList.1 memh)
    have rewrites := s.rewrites_newSite target 0
    exact ⟨closed.rewritten rewrites grows within rfl rfl rfl,
      closed.acyclic_of_fresh rewrites within (Nat.lt_irrefl _)⟩

/-- A write closes a circle or it does not, and that is all there is to it. -/
theorem Writes.acyclic_iff (writes : s.Writes W cell added t) (acyclic : s.Acyclic) :
    t.Acyclic ↔ ¬ (Link.mk s cell added).Closes := by
  rw [writes.rewrites.1.acyclic_iff acyclic, Link.Closes]
  push Not
  rfl

theorem Path.closed {links : List Link} (path : s.Path W links t) (closed : s.Closed W) :
    t.Closed W := by
  induction path with
  | start => exact closed
  | made _ makes ih => exact (makes.kept ih).1
  | written _ writes ih => exact writes.closed ih

/-- Where no write on a path closed a circle, there is none. -/
theorem Path.acyclic {links : List Link} (path : s.Path W links t) (closed : s.Closed W)
    (acyclic : s.Acyclic) (open_ : ∀ l ∈ links, ¬ l.Closes) : t.Acyclic := by
  induction path with
  | start => exact acyclic
  | made before makes ih => exact (makes.kept (before.closed closed)).2 (ih open_)
  | written before writes ih =>
    obtain ⟨last, others⟩ := List.forall_mem_cons.1 open_
    exact (writes.acyclic_iff (ih others)).2 last

end State

/-! Computations that take a path. -/

/-- A failure whose throwable was made. -/
def Failure.Within (s : State) (f : Failure) : Prop :=
  ∀ t, f.thrown? = some t → t.id < s.suppressed.size

/-- A halt that reports a failure of that sort, if any. -/
def Halt.Within (s : State) : Halt → Prop
  | .failed f => f.Within s
  | .stuck | .exhausted => True

theorem Failure.within_of_isStatic {f : Failure} (h : f.isStatic = true) : f.Within s := by
  intro t thrown
  rw [Failure.thrown?_of_isStatic h] at thrown
  cases thrown

theorem Halt.within_of_isStatic {e : Halt} (h : e.IsStatic) : e.Within s := by
  cases e with
  | failed f => exact Failure.within_of_isStatic h
  | stuck | exhausted => trivial

/-- A computation takes a path from every closed state that has the cells of `s`. It writes nothing
unless it may, and what it ends with is as `Q` says of the state then. -/
def Exec.Stays {α : Type} (W L : Prop) (s : State) (x : Exec α) (Q : State → α → Prop) : Prop :=
  ∀ t, s.Grows t → t.Closed W → ∃ links, t.Path W links (x t).2 ∧ (¬ L → links = []) ∧
    Ends (Halt.Within (x t).2) (Q (x t).2) (x t).1

namespace Exec.Stays

variable {α β : Type} {P Q : State → α → Prop} {R : State → β → Prop} {x : Exec α}

theorem pure {a : α} (h : ∀ t, s.Grows t → Q t a) : Stays W L s (Pure.pure a) Q :=
  fun t grows _ => ⟨[], .start, fun _ => rfl, h t grows⟩

/-- A computation that leaves the state alone. -/
theorem ofChecked {x : Checked α} (h : ∀ t, s.Grows t → Ends (Halt.Within t) (Q t) x) :
    Stays W L s (Exec.ofChecked x) Q :=
  fun t grows _ => ⟨[], .start, fun _ => rfl, h t grows⟩

theorem bind {f : α → Exec β} (hx : Stays W L s x P)
    (hf : ∀ t a, s.Grows t → P t a → Stays W L t (f a) R) : Stays W L s (x >>= f) R := by
  intro t grows closed
  obtain ⟨links, path, nothing, ends⟩ := hx t grows closed
  cases result : x t with
  | mk outcome u =>
    rw [result] at path ends
    cases outcome with
    | error e =>
      rw [bind_of_error result]
      exact ⟨links, path, nothing, ends⟩
    | ok a =>
      rw [bind_of_ok result]
      obtain ⟨links', path', nothing', ends'⟩ :=
        hf u a (grows.trans path.grows) ends u (.refl u) (path.closed closed)
      refine ⟨links' ++ links, path.trans path', fun none => ?_, ends'⟩
      rw [nothing none, nothing' none, List.append_nil]

theorem imp (hx : Stays W L s x P) (weaker : ∀ t a, s.Grows t → P t a → Q t a) :
    Stays W L s x Q := by
  intro t grows closed
  obtain ⟨links, path, nothing, ends⟩ := hx t grows closed
  exact ⟨links, path, nothing, ends.imp fun a => weaker _ a (grows.trans path.grows)⟩

/-- A computation may write whenever it writes nothing. -/
theorem allow {L' : Prop} (hx : Stays W L s x Q) (allowed : L → L') : Stays W L' s x Q := by
  intro t grows closed
  obtain ⟨links, path, nothing, ends⟩ := hx t grows closed
  exact ⟨links, path, fun none => nothing fun may => none (allowed may), ends⟩

theorem mono (hx : Stays W L s x Q) (grows : s.Grows t) : Stays W L t x Q :=
  fun u more closed => hx u (grows.trans more) closed

/-- A failure is handed on as a result. -/
theorem attempt (hx : Stays W L s x P) :
    Stays W L s x.attempt fun t answer => Ends (Failure.Within t) (P t) answer := by
  intro t grows closed
  obtain ⟨links, path, nothing, ends⟩ := hx t grows closed
  rw [attempt_apply]
  refine ⟨links, path, nothing, ?_⟩
  match outcome : (x t).1 with
  | .ok a => exact ends.of_eq_ok outcome
  | .error (.failed f) => exact ends.of_eq_error outcome
  | .error .stuck => trivial
  | .error .exhausted => trivial

theorem halt {e : Halt} (h : ∀ t, s.Grows t → e.Within t) : Stays W L s (throw e : Exec α) Q :=
  ofChecked h

theorem refuse {failure : Failure} (h : failure.isStatic = true) :
    Stays W L s (Exec.refuse failure : Exec α) Q :=
  ofChecked fun _ _ => Failure.within_of_isStatic h

theorem ofExcept {x : Except Failure α} (h : ∀ t, s.Grows t → Ends (·.isStatic = true) (Q t) x) :
    Stays W L s (Exec.ofExcept x) Q := by
  refine ofChecked fun t grows => ?_
  have ends := h t grows
  cases x with
  | ok a => exact ends
  | error f => exact Failure.within_of_isStatic ends

theorem ofOption {x : Option α} (h : ∀ t a, s.Grows t → x = some a → Q t a) :
    Stays W L s (Exec.ofOption x) Q := by
  refine ofChecked fun t grows => ?_
  cases x with
  | some a => exact h t a grows rfl
  | none => trivial

/-- A computation that reads the state. -/
theorem get : Stays W L s (MonadState.get : Exec State) fun t a => a = t ∧ a.Closed W :=
  fun _ _ closed => ⟨[], .start, fun _ => rfl, rfl, closed⟩

/-- A computation that makes something and does not fail. -/
theorem make (h : ∀ t, s.Grows t → t.Closed W →
    t.Makes W (x t).2 ∧ ∃ a, (x t).1 = .ok a ∧ Q (x t).2 a) : Stays W L s x Q := by
  intro t grows closed
  obtain ⟨makes, a, done, holds⟩ := h t grows closed
  refine ⟨[], .made .start makes, fun _ => rfl, ?_⟩
  rw [done]
  exact holds

/-- A computation that writes into a cell and does not fail. -/
theorem write (may : L) (h : ∀ t, s.Grows t → ∃ cell added,
    t.Writes W cell added (x t).2 ∧ ∃ a, (x t).1 = .ok a ∧ Q (x t).2 a) : Stays W L s x Q := by
  intro t grows _
  obtain ⟨cell, added, writes, a, done, holds⟩ := h t grows
  refine ⟨_, .written .start writes, fun none => absurd may none, ?_⟩
  rw [done]
  exact holds

end Exec.Stays
end TypedHandles
