import TypedHandles.Proofs.Building
import TypedHandles.Machine.Run

/-!
What a computation writes into the journal, and that nothing else depends on it.

`Exec.Tracks` relates two computations that differ in what they record, and says of the first one
what it records: `Peaceful` that no host code ended with a fatal failure, `Final` that such an end
is the last of all and is how the computation halts.
-/
namespace TypedHandles

/-- Whether an event is the end of host code with a fatal failure. -/
def Event.isFatalEnd : Event → Bool
  | .ended (.error failure) => failure.isFatal
  | _ => false

/-- The end of host code with a fatal failure. -/
def Event.fatalEnd (text : String) : Event := .ended (.error (.fatal text))

/-- How a result halts, if it does. -/
def halt? {α : Type} : Except Halt α → Option Halt
  | .ok _ => none
  | .error e => some e

/-- How a run halts, and the events of the run, the latest first. -/
abbrev Account := Option Halt → List Event → Prop

/-- No host code ended with a fatal failure. -/
def Peaceful : Account := fun _ es => ∀ e ∈ es, e.isFatalEnd = false

/-- A fatal end of host code comes last, but for the ends of the host code around it by the same
failure, and the run halts with that failure. -/
def Final : Account := fun halt es =>
  (Peaceful halt es ∧ ∀ text, halt ≠ some (.failed (.fatal text))) ∨
    ∃ text before count, halt = some (.failed (.fatal text)) ∧ Peaceful none before ∧
      es = List.replicate (count + 1) (Event.fatalEnd text) ++ before

/-- Accounts of parts make an account of the whole, and one may halt without a record, unless it is
fatally. -/
class Account.Regular (P : Account) : Prop where
  nil : P none []
  append : ∀ {halt es es'}, P none es → P halt es' → P halt (es' ++ es)
  mild : ∀ {e : Halt}, (∀ text, e ≠ .failed (.fatal text)) → P (some e) []

theorem Peaceful.append {halt halt' : Option Halt} {es es' : List Event} (h : Peaceful halt es)
    (h' : Peaceful halt' es') : Peaceful halt' (es' ++ es) :=
  List.forall_mem_append.2 ⟨h', h⟩

instance : Account.Regular Peaceful where
  nil := List.forall_mem_nil _
  append h h' := h.append h'
  mild _ := List.forall_mem_nil _

namespace Final

theorem ofPeaceful {halt : Option Halt} {es : List Event} (h : Peaceful halt es)
    (mild : ∀ text, halt ≠ some (.failed (.fatal text))) : Final halt es :=
  .inl ⟨h, mild⟩

/-- One event that is no fatal end, after which the run goes on. -/
theorem single {e : Event} (h : e.isFatalEnd = false) : Final none [e] :=
  .ofPeaceful (List.forall_mem_singleton.2 h) fun _ => (Option.some_ne_none _).symm

/-- Whatever goes on had no fatal end. -/
theorem peaceful {es : List Event} (h : Final none es) : Peaceful none es := by
  rcases h with ⟨h, -⟩ | ⟨_, _, _, impossible, -⟩
  · exact h
  · cases impossible

theorem append {halt : Option Halt} {es es' : List Event} (h : Peaceful none es)
    (h' : Final halt es') : Final halt (es' ++ es) := by
  rcases h' with ⟨peaceful, mild⟩ | ⟨text, before, count, halts, peaceful, rfl⟩
  · exact .inl ⟨h.append peaceful, mild⟩
  · refine .inr ⟨text, before ++ es, count, halts, h.append peaceful, ?_⟩
    rw [List.append_assoc]

end Final

instance : Account.Regular Final where
  nil := .ofPeaceful (List.forall_mem_nil _) nofun
  append h h' := .append h.peaceful h'
  mild h := .ofPeaceful (List.forall_mem_nil _) fun text halts => h text (Option.some.inj halts)

/-- A result with a static failure at most, and nothing recorded. -/
theorem Account.Regular.static {P : Account} [P.Regular] {α : Type} {x : Except Halt α}
    {Q : α → Prop} (h : Ends Halt.IsStatic Q x) : P (halt? x) [] := by
  cases x with
  | ok a => exact Regular.nil
  | error e =>
    refine Regular.mild fun text fatal => ?_
    subst fatal
    cases h

/-- Two computations do the same but for the journal, and the first one records events as an
account says. -/
def Exec.Tracks {α : Type} (P : Account) (x y : Exec α) : Prop :=
  ∀ (s : State) (journal : List Event), ∃ es journal',
    y { s with journal := journal } = ((x s).1, { (x s).2 with journal := journal' }) ∧
      (x s).2.journal = es ++ s.journal ∧ P (halt? (x s).1) es

namespace Exec.Tracks

variable {α β : Type} {P : Account} {x y : Exec α} {f g : α → Exec β}

/-- A computation that does not look at the journal and leaves it alone. -/
theorem silent (h : ∀ s journal,
    x { s with journal := journal } = ((x s).1, { (x s).2 with journal := journal }))
    (account : ∀ s, P (halt? (x s).1) []) : Tracks P x x := by
  intro s journal
  refine ⟨[], journal, h s journal, ?_, account s⟩
  show (x s).2.journal = s.journal
  have same : x s = ((x s).1, { (x s).2 with journal := s.journal }) := h s s.journal
  rw [same]

theorem ofChecked {c : Checked α} (h : P (halt? c) []) :
    Tracks P (Exec.ofChecked c) (Exec.ofChecked c) :=
  silent (fun _ _ => rfl) fun _ => h

theorem ofBuild {b : Build α} (h : ∀ t, P (halt? (b t).1) []) :
    Tracks P (Exec.ofBuild b) (Exec.ofBuild b) :=
  silent (fun _ _ => rfl) fun s => h s.handles

theorem record {e : Event} (h : P none [e]) : Tracks P (Exec.record e) (Exec.record e) :=
  fun _ journal => ⟨[e], e :: journal, rfl, rfl, h⟩

/-- What is read of the state does not depend on the journal. -/
theorem get {f g : State → Exec β}
    (h : ∀ s journal, Tracks P (f s) (g { s with journal := journal })) :
    Tracks P (MonadState.get >>= f) (MonadState.get >>= g) :=
  fun s journal => h s journal s journal

variable [regular : P.Regular]

theorem pure (a : α) : Tracks P (Pure.pure a) (Pure.pure a) :=
  silent (fun _ _ => rfl) fun _ => regular.nil

theorem stuck : Tracks P (throw .stuck : Exec α) (throw .stuck) :=
  silent (fun _ _ => rfl) fun _ => regular.mild nofun

theorem exhausted : Tracks P (throw .exhausted : Exec α) (throw .exhausted) :=
  silent (fun _ _ => rfl) fun _ => regular.mild nofun

theorem refuse {failure : Failure} (h : failure.isFatal = false) :
    Tracks P (Exec.refuse failure : Exec α) (Exec.refuse failure) := by
  refine ofChecked (regular.mild fun text fatal => ?_)
  cases fatal
  cases h

theorem ofOption (x : Option α) : Tracks P (Exec.ofOption x) (Exec.ofOption x) :=
  ofChecked (Account.Regular.static (Ends.ofOption fun _ found => found))

theorem ofExcept {x : Except Failure α} {Q : α → Prop} (h : Ends (·.isStatic = true) Q x) :
    Tracks P (Exec.ofExcept x) (Exec.ofExcept x) :=
  ofChecked (Account.Regular.static (.ofExcept h))

/-- A change of the state that does not depend on the journal and keeps it. -/
theorem change {f : State → State}
    (h : ∀ s journal, f { s with journal := journal } = { f s with journal := journal }) :
    Tracks P (modify f : Exec Unit) (modify f) :=
  silent (fun s journal => congrArg (fun t => (Except.ok PUnit.unit, t)) (h s journal))
    fun _ => regular.nil

theorem bind (hx : Tracks P x y) (hf : ∀ a, Tracks P (f a) (g a)) :
    Tracks P (x >>= f) (y >>= g) := by
  intro s journal
  obtain ⟨es, journal₁, same, grown, account⟩ := hx s journal
  cases result : x s with
  | mk outcome t =>
    rw [result] at same grown account
    cases outcome with
    | error e =>
      rw [bind_of_error result, bind_of_error same]
      exact ⟨es, journal₁, rfl, grown, account⟩
    | ok a =>
      rw [bind_of_ok result, bind_of_ok same]
      obtain ⟨es', journal₂, same₂, grown₂, account₂⟩ := hf a t journal₁
      refine ⟨es' ++ es, journal₂, same₂, ?_, regular.append account account₂⟩
      rw [grown₂, grown, List.append_assoc]

/-- The first computation may record more. -/
theorem noted {e : Event} (h : P none [e]) (hx : Tracks P x y) :
    Tracks P (do Exec.record e; x) y := by
  intro s journal
  obtain ⟨es, journal', same, grown, account⟩ := hx { s with journal := e :: s.journal } journal
  refine ⟨es ++ [e], journal', same, ?_, regular.append h account⟩
  rw [List.append_assoc]
  exact grown

end Exec.Tracks

/-! Failures handed on as results. -/

namespace Exec

variable {α β : Type} {x y : Exec α}

/-- What is handed on of a result: failures are, other halts are not. -/
def attempted : Except Halt α → Except Halt (Except Failure α)
  | .ok a => .ok (.ok a)
  | .error (.failed failure) => .ok (.error failure)
  | .error .stuck => .error .stuck
  | .error .exhausted => .error .exhausted

theorem attempt_apply (x : Exec α) (s : State) :
    x.attempt s = (attempted (x s).1, (x s).2) := by
  unfold attempt
  match x s with
  | (.ok _, _) => rfl
  | (.error (.failed _), _) => rfl
  | (.error .stuck, _) => rfl
  | (.error .exhausted, _) => rfl

/-- An attempt is never fatal itself. -/
theorem attempted_mild (outcome : Except Halt α) (text : String) :
    halt? (attempted outcome) ≠ some (.failed (.fatal text)) := by
  match outcome with
  | .ok _ => nofun
  | .error (.failed _) => nofun
  | .error .stuck => nofun
  | .error .exhausted => nofun

/-- Failures of a computation without fatal ends may be followed by anything. -/
theorem Tracks.attemptPeaceful (hx : Tracks Peaceful x y) : Tracks Final x.attempt y.attempt := by
  intro s journal
  obtain ⟨es, journal', same, grown, account⟩ := hx s journal
  refine ⟨es, journal', ?_, ?_, ?_⟩
  · rw [attempt_apply, attempt_apply, same]
  · rw [attempt_apply]
    exact grown
  · rw [attempt_apply]
    exact .ofPeaceful account (attempted_mild _)

/-- A computation that fails at once with a fatal failure, when some host code has ended with it. -/
def GivesUp (text : String) (count : Nat) (x : Exec α) : Prop :=
  ∀ s, x s = (.error (.failed (.fatal text)),
    { s with journal := List.replicate count (Event.fatalEnd text) ++ s.journal })

/-- What goes on after other failures, but gives up after a fatal one, keeps it final. -/
theorem Tracks.attemptFinal (count : Nat) (hx : Tracks Final x y)
    {f g : Except Failure α → Exec β}
    (mild : ∀ answer, (∀ text, answer ≠ .error (.fatal text)) →
      Tracks Final (f answer) (g answer))
    (fatal : ∀ text, (f (.error (.fatal text))).GivesUp text count ∧
      (g (.error (.fatal text))).GivesUp text count) :
    Tracks Final (x.attempt >>= f) (y.attempt >>= g) := by
  intro s journal
  obtain ⟨es, journal₁, same, grown, account⟩ := hx s journal
  have hx := attempt_apply x s
  have hy := attempt_apply y { s with journal := journal }
  rw [same] at hy
  have goesOn : ∀ answer, attempted (x s).1 = .ok answer → Peaceful none es →
      (∀ text, answer ≠ .error (.fatal text)) → ∃ es journal',
        (y.attempt >>= g) { s with journal := journal } =
          (((x.attempt >>= f) s).1, { ((x.attempt >>= f) s).2 with journal := journal' }) ∧
        ((x.attempt >>= f) s).2.journal = es ++ s.journal ∧
          Final (halt? ((x.attempt >>= f) s).1) es := by
    intro answer attempted peaceful notFatal
    rw [attempted] at hx hy
    rw [bind_of_ok hx, bind_of_ok hy]
    obtain ⟨es', journal₂, same₂, grown₂, account₂⟩ := mild answer notFatal (x s).2 journal₁
    refine ⟨es' ++ es, journal₂, same₂, ?_, .append peaceful account₂⟩
    rw [grown₂, grown, List.append_assoc]
  generalize x s = result at grown account hx hy goesOn
  rcases result with ⟨(failure | _ | _) | a, t⟩
  · rcases account with ⟨peaceful, notFatal⟩ | ⟨text, before, ends, halts, peaceful, rfl⟩
    · exact goesOn (.error failure) rfl peaceful fun text eq =>
        notFatal text (by cases eq; rfl)
    · cases halts
      rw [bind_of_ok hx, bind_of_ok hy, (fatal text).1 t, (fatal text).2]
      refine ⟨List.replicate (count + (ends + 1)) (Event.fatalEnd text) ++ before, _, rfl, ?_,
        .inr ⟨text, before, count + ends, rfl, peaceful, rfl⟩⟩
      show List.replicate count _ ++ t.journal = _
      rw [grown, List.replicate_add count (ends + 1)]
      simp only [List.append_assoc]
  · rw [bind_of_error hx, bind_of_error hy]
    exact ⟨es, journal₁, rfl, grown, account⟩
  · rw [bind_of_error hx, bind_of_error hy]
    exact ⟨es, journal₁, rfl, grown, account⟩
  · exact goesOn (.ok a) rfl account.peaceful nofun

theorem refuse_givesUp (text : String) : (refuse (.fatal text) : Exec α).GivesUp text 0 :=
  fun _ => rfl

end Exec
end TypedHandles
