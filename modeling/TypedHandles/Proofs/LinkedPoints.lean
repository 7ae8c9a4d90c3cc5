import TypedHandles.Proofs.CallSites
import TypedHandles.Proofs.Publication

/-!
Which signature the site of a call point has. What a bootstrap returns is checked against the
descriptor that it was run for, and a site in the table was checked against the descriptor that it
was published for; neither is checked again. So a link is typed as its own descriptor as long as the
descriptors of the point agree, and it may be typed as another of them where they do not.
-/
namespace TypedHandles

/-- What it comes to in a state to invoke a call point with this site, if the call point is of the
signature given. -/
structure CallSite.Answers (c : CallSite) (signature : Signature) (run : Runner)
    (args : List Value) (s : State) (outcome : Except Halt Value × State) : Prop where
  unlinked : s.target? c = none → outcome = c.unlinked s
  exact : ∀ target, s.target? c = some target → (target.signature == signature) = true
  called : ∀ target, s.target? c = some target → Conform args signature.params →
    outcome = run.call target args s
  /-- The target does not run on anything else. -/
  refused : ∀ target, s.target? c = some target → ¬ Conform args signature.params →
    ∃ failure, target.checkArguments args = .error failure ∧
      outcome = (.error (.failed failure), s)

variable {s t : State} {σ : World} {c : CallSite}

/-- The target of a site of this signature is invoked as a handle of this signature. -/
theorem CallSite.answers (inWorld : s.InWorld σ) (site : σ.Site c) {signature : Signature}
    (same : (c.signature == signature) = true) (run : Runner) (args : List Value) :
    c.Answers signature run args s ((do
      let target ← c.target
      target.invokeExact run args) s) := by
  have typed : ∀ h, s.target? c = some h → (h.signature == signature) = true :=
    fun h found => Signature.beq_trans (inWorld.target site found).2 same
  have accepts : ∀ h, s.target? c = some h →
      (Conform args h.signature.params ↔ Conform args signature.params) :=
    fun h found => conform_congr (Signature.beq_iff_parts.1 (typed h found)).2 args
  have read : ∀ h, s.target? c = some h → c.target s = (.ok h, s) := by
    intro h found
    unfold target
    rw [bind_get, found]
    rfl
  refine ⟨fun none => ?_, typed, fun h found conform => ?_, fun h found other => ?_⟩
  · refine bind_of_error ?_
    unfold target
    rw [bind_get, none]
    rfl
  · rw [bind_of_ok (read h found), h.invokeExact_of_conform run ((accepts h found).2 conform)]
  · obtain ⟨failure, checked, refuses⟩ :=
      h.invokeExact_of_not_conform (fun conform => other ((accepts h found).1 conform)) run
    exact ⟨failure, checked, (bind_of_ok (read h found)).trans (refuses s)⟩

namespace Linker

variable {l : Linker} {id : UInt64} {d : Descriptor} {x : Exec Value} {site : CallSite}

/-- How a link comes by the site that it yields. -/
inductive Yields (l : Linker) (id : UInt64) (d : Descriptor) (x : Exec Value) (s : State) :
    CallSite → State → Prop
  | found {site : CallSite} : l.linked? s id = some site → Yields l id d x s site s
  | first {site : CallSite} {u : State} : l.resolve d x s = (.ok site, u) →
      l.linked? u id = none → Yields l id d x s site (l.publish id site u).2
  /-- The bootstrap linked the point itself. -/
  | overtaken {own site : CallSite} {t : State} : l.resolve d x s = (.ok own, t) →
      l.linked? t id = some site → Yields l id d x s site t

theorem link_yields (done : l.link id d x s = (.ok site, t)) : l.Yields id d x s site t := by
  cases before : l.linked? s id with
  | some old =>
    rw [link_of_linked before] at done
    cases done
    exact .found before
  | none =>
    rw [link_of_unlinked before] at done
    obtain ⟨own, u, resolved, published⟩ := bind_eq_ok done
    cases after : l.linked? u id with
    | some old =>
      rw [publish_of_linked after] at published
      cases published
      exact .overtaken resolved after
    | none =>
      have stored : (l.publish id own u).2 = t := by rw [published]
      rw [publish_of_unlinked after] at published
      obtain ⟨same, -⟩ := Prod.mk.inj published
      cases same
      exact stored ▸ .first resolved after

end Linker

/-- The signatures of linked call points, where `point` says which signatures may meet which point.
A site that is linked or that a link yields is of one that met the point. If all of them are that of
the descriptor, so is the site; it is otherwise too, unless the site was published before. A call
point whose site has its own signature is invoked with it. -/
theorem Linker.link_signature {point : Nat → UInt64 → Signature → Prop} {values : List Value}
    (attained : Attained point values s) {l : Linker} (id : UInt64) (d : Descriptor)
    {method : Bootstrap} {host : Host} (n : Nat) (hostInScope : host.InScope (.held point values s))
    (inScope : (method l.lookup d).InScope (.held point values s))
    (met : point l.id id d.signature) :
    let run := runCode host n
    let bootstrap := announce l.lookup d ((method l.lookup d).run run)
    (∀ site, l.linked? s id = some site →
      ∃ signature, point l.id id signature ∧ (site.signature == signature) = true) ∧
    ∀ site t, l.link id d bootstrap s = (.ok site, t) →
      (∃ signature, point l.id id signature ∧ (site.signature == signature) = true) ∧
      ((∀ signature, point l.id id signature → (signature == d.signature) = true) →
        (site.signature == d.signature) = true) ∧
      ((site.signature == d.signature) = true ∨ l.linked? s id = some site ∨
        ∃ own, l.resolve d bootstrap s = (.ok own, t) ∧
          (own.signature == d.signature) = true ∧ l.linked? t id = some site) ∧
      ((site.signature == d.signature) = true → ∀ args,
        site.Answers d.signature run args t
          ((Operation.invokePoint l id d method args).answer run s)) := by
  intro run bootstrap
  obtain ⟨σ, rfl, inWorld, -, offered⟩ := attained.inWorld
  have keeps : ∀ τ, σ.Grows τ → Exec.Keeps τ bootstrap fun ρ v => v.InScope ρ.scope := by
    intro τ grows
    refine announce_keeps fun ρ grows' => HostTask.run_keeps ?_ ?_
    · exact (runCode_keeps (hostInScope.mono offered) n).mono (grows.trans grows')
    · exact (inScope.mono offered).mono (grows.trans grows').scope
  refine ⟨fun site found => (linked?_typed inWorld found).2, fun site t done => ?_⟩
  obtain ⟨τ, grows, inWorld', ends⟩ := link_keeps met keeps s inWorld
  rw [done] at inWorld' ends
  obtain ⟨known, signature, among, same⟩ : l.Typed τ id site := ends
  rw [grows.point] at among
  refine ⟨⟨signature, among, same⟩, fun agree => Signature.beq_trans same (agree _ among), ?_,
    fun own args => ?_⟩
  · have checked : ∀ c u, l.resolve d bootstrap s = (.ok c, u) →
        (c.signature == d.signature) = true := by
      intro c u resolved
      obtain ⟨ρ, -, -, ends⟩ := resolve_keeps (keeps σ (.refl σ)) s inWorld
      rw [resolved] at ends
      exact ends.2
    cases link_yields done with
    | found before => exact .inr (.inl before)
    | first resolved _ => exact .inl (checked _ _ resolved)
    | overtaken resolved after => exact .inr (.inr ⟨_, resolved, checked _ _ resolved, after⟩)
  · have invoked : (Operation.invokePoint l id d method args).answer run s = (do
        let target ← site.target
        target.invokeExact run args : Exec Value) t := bind_of_ok done
    rw [invoked]
    exact CallSite.answers inWorld' known own run args

/-- A bootstrap that makes a site for a number, whatever the call point. -/
def HostTask.answering (n : Int32) : Bootstrap := fun _ _ =>
  .andThen (.construct (.constant (.prim .int) (.int n))) fun
    | .handle h => .last (.newSite .constant h)
    | other => .value other

theorem HostTask.answering_inScope (n : Int32) (lookup : Lookup) (d : Descriptor) (S : Scope) :
    (answering n lookup d).InScope S := by
  refine ⟨.plain rfl, fun S' answer _ ends => ?_⟩
  cases answer with
  | error failure => trivial
  | ok v =>
    unfold AnswerInScope at ends
    cases v with
    | handle h => exact ⟨Value.inScope_handle_iff.1 ends, fun _ _ _ ends => ends⟩
    | _ => exact ends

/-- A call point that is linked already, at its only signature: its site answers, and its bootstrap
does not run. -/
theorem Linker.link_signature_answering :
    ∃ (values : List Value) (s t : State) (l : Linker) (d : Descriptor) (site : CallSite),
      Attained (fun _ _ signature => (signature == ⟨.prim .int, []⟩) = true) values s ∧
      l.linked? s 7 = some site ∧ (site.signature == d.signature) = true ∧
      (Operation.invokePoint l 7 d (.answering 6) []).answer (runCode .idle 2) s =
        (.ok (.int 5), t) := by
  let l : Linker := ⟨0, ⟨"Main", 0, none, 0⟩, .default⟩
  let d : Descriptor := ⟨"size", ⟨.prim .int, []⟩, []⟩
  have start : Attained (fun _ _ signature => (signature == ⟨.prim .int, []⟩) = true) [] _ :=
    .newLinker l.lookup l.config .refl
  have linked := start.performed (.link l 7 d (.answering 5)) 1 (Host.idle_inScope _)
    ⟨rfl, HostTask.answering_inScope 5 _ _ _⟩ rfl
  obtain ⟨-, links⟩ := Linker.link_signature linked 7 d 2 (Host.idle_inScope _)
    (HostTask.answering_inScope 6 l.lookup d _) rfl
  obtain ⟨-, own, -, invokes⟩ := links _ _ rfl
  have same := own fun signature met => met
  exact ⟨_, _, _, l, d, _, linked, rfl, same, (invokes same []).called _ rfl .nil⟩

/-- A call point that is linked for one signature and then again for another: the second link yields
the site of the first. -/
theorem Linker.link_signature_reused :
    ¬ ∀ (values : List Value) (s t : State) (l : Linker) (id : UInt64) (d : Descriptor)
        (method : Bootstrap) (host : Host) (n : Nat) (site : CallSite),
      Attained (fun _ _ _ => True) values s →
      host.InScope (.held (fun _ _ _ => True) values s) →
      (method l.lookup d).InScope (.held (fun _ _ _ => True) values s) →
      l.link id d (announce l.lookup d ((method l.lookup d).run (runCode host n))) s =
        (.ok site, t) →
      (site.signature == d.signature) = true := by
  intro always
  let l : Linker := ⟨0, ⟨"Main", 0, none, 0⟩, .default⟩
  have start : Attained (fun _ _ _ => True) [] _ := .newLinker l.lookup l.config .refl
  have linked := start.performed (.link l 7 ⟨"size", ⟨.prim .int, []⟩, []⟩ (.answering 5)) 1
    (Host.idle_inScope _) ⟨trivial, HostTask.answering_inScope 5 _ _ _⟩ rfl
  let other : Descriptor := ⟨"text", ⟨.ref .string, [.ref .string]⟩, []⟩
  have same := always _ _ _ l 7 other (.answering 5) .idle 1 _ linked (Host.idle_inScope _)
    (HostTask.answering_inScope 5 _ _ _) rfl
  cases same

end TypedHandles
