import TypedHandles.Proofs.OwnedHosts
import TypedHandles.Proofs.CallSites

/-!
Whether ownership stays acyclic. Whatever is built, adapted, linked or made on a run closes no
circle, since it refers to what was there before; the one thing that can is a write into a cell, and
a write closes one exactly if what it puts there leads back to the cell.

Nothing keeps a write from that. The cleanup of a handle does look whether a throwable would come to
suppress itself, but not whether it would through another one.
-/
namespace TypedHandles

open Relation (TransGen ReflTransGen)

variable {W L : Prop} {s t : State}

/-- The write that an operation is, unless it is refused. -/
def Operation.write? (s : State) : Operation → Option Link
  | .setField o index v =>
    if index < (s.fields o).length then some ⟨s, .object o.id, v.node?.toList⟩ else none
  | .suppress t other => some ⟨s, .throwable t.id, [.throwable other.id]⟩
  | .setTarget site target | .setTargetPlain site target | .setTargetFenced site target =>
    (site.checkRetarget target).toOption.map fun _ => ⟨s, .site site.id, [.handle target]⟩
  | _ => none

/-- The states that a library can get into. Each operation is on what exists by then, and so is what
the host uses, which may be another host each time. A run may stop in the middle of an operation,
wherever code is called in whatever state. `W` says whether there may be code that writes, and `L`
whether an operation may. -/
inductive Arises (W L : Prop) : State → Prop
  | start : Arises W L .empty
  | perform {s : State} {host : Host} (operation : Operation) (n : Nat) : Arises W L s →
      host.Within W s → operation.Within W s → (operation.MayWrite W → L) →
      Arises W L (operation.answer (runCode host n) s).2
  | stopped {s u : State} {host : Host} {code : Code} {args : List Value} (operation : Operation)
      (n : Nat) : Arises W L s → host.Within W s → operation.Within W s →
      (operation.MayWrite W → L) →
      Arises W L (operation.answer (runWith (.stuckAt code args u) host n) s).2
  | noted {s : State} (e : Event) : Arises W L s → Arises W L { s with journal := e :: s.journal }
  | newRegistry {s : State} : Arises W L s → Arises W L (TypedHandles.newRegistry s).2
  | newCache {s : State} : Arises W L s → Arises W L (TypedHandles.newCache s).2
  | newLinker {s : State} (lookup : Lookup) (config : LinkerSwitches) : Arises W L s →
      Arises W L (TypedHandles.newLinker lookup config s).2
  | newCounter {s : State} (start : Nat) : Arises W L s →
      Arises W L { s with counters := s.counters.push start }

/-- There is a path from one state to another, with writes on it only if there may be. -/
def State.Leads (W L : Prop) (s t : State) : Prop :=
  ∃ links, s.Path W links t ∧ (¬ L → links = [])

/-- A run that gets stuck at a call has taken its path as far as that. -/
theorem Runner.stuckAt_stays {run : Runner} (code : Code) (args : List Value) (u : State)
    (stays : run.Stays W s) : (run.stuckAt code args u).Stays W s := by
  intro t code' args' grows within given v grows' closed
  unfold Runner.stuckAt
  split
  · exact ⟨[], .start, fun _ => rfl, trivial⟩
  · exact stays t code' args' grows within given v grows' closed

namespace State.Leads

variable {operation : Operation} {run : Runner}

/-- An operation takes a path from a closed state. -/
theorem answer (closed : s.Closed W) (stays : run.Stays W s) (within : operation.Within W s) :
    s.Leads W (operation.MayWrite W) (operation.answer run s).2 := by
  obtain ⟨links, path, nothing, -⟩ := Operation.answer_stays stays within id s (.refl s) closed
  exact ⟨links, path, nothing⟩

/-- A path from the beginning goes on with a change besides the cells. -/
theorem beside (leads : State.empty.Leads W L s) (makes : s.Closed W → s.Makes W t) :
    State.empty.Leads W L t := by
  obtain ⟨links, path, nothing⟩ := leads
  exact ⟨links, .made path (makes (path.closed State.empty_closed)), nothing⟩

/-- A path from the beginning goes on with an operation. -/
theorem performed (leads : State.empty.Leads W L s) (stays : run.Stays W s)
    (within : operation.Within W s) (may : operation.MayWrite W → L) :
    State.empty.Leads W L (operation.answer run s).2 := by
  obtain ⟨links, path, nothing⟩ := leads
  obtain ⟨more, goesOn, nothingMore⟩ := answer (path.closed State.empty_closed) stays within
  refine ⟨more ++ links, path.trans goesOn, fun none => ?_⟩
  rw [nothing none, nothingMore fun writes => none (may writes), List.append_nil]

end State.Leads

/-- A run takes a path from the beginning. -/
theorem Arises.path (arises : Arises W L s) : State.empty.Leads W L s := by
  induction arises with
  | start => exact ⟨[], .start, fun _ => rfl⟩
  | perform operation n _ hostWithin within may ih =>
    exact ih.performed (runCode_stays hostWithin n) within may
  | stopped operation n _ hostWithin within may ih =>
    exact ih.performed (runWith_stays hostWithin (Runner.stuckAt_stays _ _ _) n) within may
  | noted e _ ih =>
    exact ih.beside fun closed =>
      closed.beside rfl rfl rfl closed.handles closed.caches closed.links
  | newRegistry _ ih =>
    exact ih.beside fun closed =>
      closed.beside rfl rfl rfl closed.handles closed.caches closed.links
  | newCache _ ih =>
    refine ih.beside fun closed =>
      closed.beside rfl rfl rfl closed.handles (fun i c found => ?_) closed.links
    obtain old | rfl := getElem?_push found
    · exact closed.caches i c old
    · exact SharedHandles.empty_within
  | newLinker lookup config _ ih =>
    refine ih.beside fun closed =>
      closed.beside rfl rfl rfl closed.handles closed.caches fun i table found => ?_
    obtain old | rfl := getElem?_push found
    · exact closed.links i table old
    · exact List.forall_mem_nil _
  | newCounter start _ ih =>
    exact ih.beside fun closed =>
      closed.beside rfl rfl rfl closed.handles closed.caches closed.links

/-! Writes. -/

/-- A site that gets another target. -/
theorem setTargetFenced_apply {site : CallSite} {target : Handle}
    (accepted : site.checkRetarget target = .ok ()) (s : State) :
    site.setTargetFenced target s = (.ok (), { s with
      sites := s.sites.modify site.id fun cell => ⟨some target, cell.generation + 1⟩
      journal := .retargeted site target :: s.journal }) := by
  unfold CallSite.setTargetFenced
  rw [accepted]
  rfl

/-- The operation makes the write that it is. -/
theorem Operation.write_made {operation : Operation} {l : Link}
    (write : operation.write? s = some l) (within : operation.Within W s) (run : Runner) :
    l.before = s ∧
      ∃ t, s.Writes W l.cell l.added t ∧ (operation.answer run s).2.held = t.held := by
  have retarget : ∀ {site : CallSite} {target : Handle} {x : Handle → Exec Unit},
      site.id < s.sites.size ∧ target.Within W s → x = site.setTargetFenced →
      ((site.checkRetarget target).toOption.map
        fun _ => Link.mk s (.site site.id) [.handle target]) = some l →
      l.before = s ∧ ∃ t, s.Writes W l.cell l.added t ∧
        State.held ((do x target; return .void : Exec Value) s).2 = t.held := by
    rintro site target _ ⟨made, within⟩ rfl write
    cases checked : site.checkRetarget target with
    | error failure =>
      rw [checked] at write
      cases write
    | ok _ =>
      rw [checked] at write
      cases write
      refine ⟨rfl, _, .target site target made checked within, ?_⟩
      rw [bind_of_ok (setTargetFenced_apply checked s)]
      rfl
  cases operation with
  | setField o index v =>
    have write : (if index < (s.fields o).length then
      some (Link.mk s (.object o.id) v.node?.toList) else none) = some l := write
    split at write
    · next inside =>
      cases write
      refine ⟨rfl, _, .field o index v inside within, ?_⟩
      have stored : o.setField index v s = (.ok true, { s with
          objects := s.objects.setIfInBounds o.id ((s.fields o).set index v) }) := if_pos inside
      unfold answer
      rw [bind_of_ok stored]
      rfl
    · cases write
  | suppress x other =>
    cases write
    exact ⟨rfl, _, .suppressed x other within.1 within.2, rfl⟩
  | setTarget site target => exact retarget within site.setTarget_eq write
  | setTargetPlain site target => exact retarget within site.setTargetPlain_eq write
  | setTargetFenced site target => exact retarget within rfl write
  | _ => cases write

/-- Ownership is acyclic in every state that a library can get into, between operations and in the
middle of one, unless a write on the way there closed a circle: unless what was put into a field,
among the suppressed or into a call site led back to it. Without any writes it is acyclic in any
case. From there on, an operation that may not write keeps it acyclic, and one that is a write
itself does just if the write closes no circle. -/
theorem Arises.acyclic_unless_closed (arises : Arises W L s) :
    State.empty.Leads W L s ∧
    (∀ links, State.empty.Path W links s → (∀ l ∈ links, ¬ l.Closes) → s.Acyclic) ∧
    (¬ L → s.Acyclic) ∧
    ∀ (host : Host) (operation : Operation) (n : Nat), host.Within W s →
      operation.Within W s → s.Acyclic →
      s.Leads W (operation.MayWrite W) (operation.answer (runCode host n) s).2 ∧
      (∀ links, s.Path W links (operation.answer (runCode host n) s).2 →
        (∀ l ∈ links, ¬ l.Closes) → (operation.answer (runCode host n) s).2.Acyclic) ∧
      (¬ operation.MayWrite W → (operation.answer (runCode host n) s).2.Acyclic) ∧
      ∀ l, operation.write? s = some l →
        ((operation.answer (runCode host n) s).2.Acyclic ↔ ¬ l.Closes) := by
  obtain ⟨links, path, nothing⟩ := arises.path
  have closed := path.closed State.empty_closed
  refine ⟨arises.path, fun _ other => other.acyclic State.empty_closed State.empty_acyclic,
    fun none => ?_, ?_⟩
  · rw [nothing none] at path
    exact path.acyclic State.empty_closed State.empty_acyclic nofun
  intro host operation n hostWithin within acyclic
  have goesOn := State.Leads.answer closed (runCode_stays hostWithin n) within
  refine ⟨goesOn, fun _ other => other.acyclic closed acyclic, fun none => ?_, ?_⟩
  · obtain ⟨more, further, nothing⟩ := goesOn
    rw [nothing none] at further
    exact further.acyclic closed acyclic nofun
  · rintro ⟨before, cell, added⟩ write
    obtain ⟨rfl, t, writes, same⟩ := Operation.write_made write within (runCode host n)
    rw [State.acyclic_congr same]
    exact writes.acyclic_iff acyclic

/-! A handle that throws its first argument, with a cleanup that throws the second one: two calls of
it, on two throwables in both orders. -/

namespace CircleOfTwo

def first : Throwable := ⟨0, .runtimeException, "first"⟩

def second : Throwable := ⟨1, .runtimeException, "second"⟩

/-- `(Throwable) -> void`, which throws its argument. -/
def thrower : Handle :=
  ⟨0, ⟨.void, [.throwable]⟩, .single ⟨.void, [.throwable]⟩ (.leaf (.intrinsic .throwArgument)),
    false⟩

/-- The same with another parameter, which is ignored. -/
def target : Handle :=
  ⟨1, ⟨.void, [.throwable, .throwable]⟩, .calling 2 [] thrower [0], false⟩

/-- The same with two parameters ahead, which are ignored: the failure of the handle and its first
argument. -/
def cleanup : Handle :=
  ⟨2, ⟨.void, [.throwable, .throwable, .throwable]⟩, .calling 3 [] thrower [2], false⟩

/-- The handle with its cleanup. -/
def guarded : Handle :=
  ⟨3, ⟨.void, [.throwable, .throwable]⟩,
    .single ⟨.void, [.throwable, .throwable]⟩ (.finishing target cleanup), false⟩

/-- A state with so many handles, and with what each throwable has suppressed. -/
def state (handles : Nat) (suppressed : Array (List Throwable)) : State :=
  { State.empty with
    handles := ⟨.replicate handles none⟩
    suppressed := suppressed }

theorem thrower_within {s : State} : thrower.Within W s :=
  Handle.within_iff.2 (Blueprint.ofAction_within (Blueprint.intrinsic_within nofun))

theorem target_within {s : State} : target.Within W s :=
  Handle.within_iff.2 (Program.calling_within (List.forall_mem_nil _) thrower_within)

theorem cleanup_within {s : State} : cleanup.Within W s :=
  Handle.within_iff.2 (Program.calling_within (List.forall_mem_nil _) thrower_within)

theorem guarded_within {s : State} (may : W) : guarded.Within W s :=
  Handle.within_iff.2 (List.forall_mem_singleton.2
    (Step.within_finishing_iff.2 ⟨may, target_within, cleanup_within⟩))

theorem idle_within (s : State) : Host.idle.Within W s :=
  fun _ _ _ _ _ => Value.within_of_isPlain rfl

/-- A run goes on with an operation that ends as said. -/
theorem goesOn (before : Arises W L s) (operation : Operation) {outcome : Except Halt Value}
    (within : operation.Within W s) (may : operation.MayWrite W → L)
    (done : operation.answer (runCode Host.idle 8) s = (outcome, t)) : Arises W L t := by
  have next := before.perform operation 8 (idle_within s) within may
  rw [done] at next
  exact next

/-- The handle and the two throwables are made without a write. -/
theorem made (L : Prop) : Arises True L (state 4 #[[], []]) := by
  have quiet : ∀ {operation : Operation}, operation.isWrite = false →
      operation.runsCode = false → operation.MayWrite True → L := by
    rintro operation direct code (writes | ⟨runs, -⟩)
    · exact absurd (direct.symm.trans writes) Bool.false_ne_true
    · exact absurd (code.symm.trans runs) Bool.false_ne_true
  have throws : Arises True L (state 1 #[]) :=
    goesOn .start (.construct (.throwException .void .throwable)) trivial (quiet rfl rfl) rfl
  have drops : Arises True L (state 2 #[]) :=
    goesOn throws (.construct (.dropArguments thrower 1 [.throwable])) thrower_within
      (quiet rfl rfl) rfl
  have cleans : Arises True L (state 3 #[]) :=
    goesOn drops (.construct (.dropArguments thrower 0 [.throwable, .throwable])) thrower_within
      (quiet rfl rfl) rfl
  have finishes : Arises True L (state 4 #[]) :=
    goesOn cleans (.construct (.tryFinally target cleanup))
      ⟨trivial, target_within, cleanup_within⟩ (quiet rfl rfl) rfl
  have one : Arises True L (state 4 #[[]]) :=
    goesOn finishes (.newThrowable .runtimeException "first") trivial (quiet rfl rfl) rfl
  exact goesOn one (.newThrowable .runtimeException "second") trivial (quiet rfl rfl) rfl

/-- Where nothing is suppressed, nothing leads from one throwable to the other. -/
theorem not_reaches : ¬ (state 4 #[[], []]).Reaches (.throwable 0) (.throwable 1) := by
  intro way
  obtain same | ⟨m, owns | owns, -⟩ := ReflTransGen.cases_head way
  · cases same
  · cases owns
  · cases owns

theorem owns_first (byFirst : List Throwable) :
    (state 4 #[byFirst, [first]]).Owns (.throwable 1) (.throwable 0) :=
  .inr (List.mem_singleton.2 rfl)

theorem owns_second : (state 4 #[[second], [first]]).Owns (.throwable 0) (.throwable 1) :=
  .inr (List.mem_singleton.2 rfl)

end CircleOfTwo

open CircleOfTwo in
/-- After the second throwable has suppressed the first one, ownership is still acyclic; after the
first has suppressed the second as well, it is not. -/
theorem Arises.acyclic_unless_closed_throwables :
    Arises True False (state 4 #[[], []]) ∧ (state 4 #[[], []]).Acyclic ∧
      Arises True True (state 4 #[[], [first]]) ∧ (state 4 #[[], [first]]).Acyclic ∧
      ¬ (state 4 #[[second], [first]]).Acyclic := by
  have exist : ∀ byFirst bySecond : List Throwable,
      first.id < (state 4 #[byFirst, bySecond]).suppressed.size ∧
        second.id < (state 4 #[byFirst, bySecond]).suppressed.size :=
    fun _ _ => ⟨Nat.zero_lt_two, Nat.one_lt_two⟩
  obtain ⟨-, -, unwritten, performed⟩ := Arises.acyclic_unless_closed (made False)
  have none := unwritten id
  obtain ⟨-, -, -, suppressed⟩ :=
    performed Host.idle (.suppress second first) 8 (idle_within _) (exist _ _).symm none
  have one : (state 4 #[[], [first]]).Acyclic := by
    refine (suppressed _ rfl).2 ?_
    rintro ⟨n, mem, way⟩
    obtain rfl := List.mem_singleton.1 mem
    exact not_reaches way
  have later : Arises True True (state 4 #[[], [first]]) :=
    goesOn (made True) (.suppress second first) (exist _ _).symm (fun _ => trivial) rfl
  obtain ⟨-, -, -, performed⟩ := Arises.acyclic_unless_closed later
  obtain ⟨-, -, -, suppressed⟩ :=
    performed Host.idle (.suppress first second) 8 (idle_within _) (exist _ _) one
  refine ⟨made False, none, later, one, fun both => (suppressed _ rfl).1 both ?_⟩
  exact ⟨.throwable 1, List.mem_singleton.2 rfl, .single (owns_first [])⟩

open CircleOfTwo in
/-- Two calls of one handle close a circle: what it throws is suppressed by what its cleanup throws,
first in one direction and then in the other. -/
theorem CircleOfTwo.cleanups_close :
    (Operation.invokeExact guarded [.throwable first, .throwable second]).answer
        (runCode Host.idle 8) (state 4 #[[], []]) =
      (.error (.failed (.thrown second)), state 4 #[[], [first]]) ∧
    (Operation.invokeExact guarded [.throwable second, .throwable first]).answer
        (runCode Host.idle 8) (state 4 #[[], [first]]) =
      (.error (.failed (.thrown first)), state 4 #[[second], [first]]) ∧
    Arises True True (state 4 #[[second], [first]]) ∧
    ¬ (state 4 #[[second], [first]]).Acyclic := by
  have there : ∀ bySecond : List Throwable,
      (Value.throwable first).Within True (state 4 #[[], bySecond]) ∧
        (Value.throwable second).Within True (state 4 #[[], bySecond]) :=
    fun _ => ⟨Value.within_throwable_iff.2 Nat.zero_lt_two,
      Value.within_throwable_iff.2 Nat.one_lt_two⟩
  have once : Arises True True (state 4 #[[], [first]]) :=
    goesOn (made True) (.invokeExact guarded [.throwable first, .throwable second])
      ⟨guarded_within trivial, List.forall_mem_cons.2
        ⟨(there _).1, List.forall_mem_singleton.2 (there _).2⟩⟩ (fun _ => trivial) rfl
  have twice : Arises True True (state 4 #[[second], [first]]) :=
    goesOn once (.invokeExact guarded [.throwable second, .throwable first])
      ⟨guarded_within trivial, List.forall_mem_cons.2
        ⟨(there _).2, List.forall_mem_singleton.2 (there _).1⟩⟩ (fun _ => trivial) rfl
  refine ⟨rfl, rfl, twice, fun acyclic => acyclic (.throwable 0) ?_⟩
  exact .head owns_second (.single (owns_first [second]))

end TypedHandles
