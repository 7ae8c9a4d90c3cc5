import TypedHandles.Proofs.Lambdas
import TypedHandles.Proofs.ScopedRuns

/-!
Host code that uses what is in scope is never stuck, whatever the kinds are.

`HostTask.InScope` is the contract of such code: it asks for nothing but operations on what is in
scope, and goes on in the same way with any answer that is. With more in scope the contract still
holds, so it may be checked once.

Since nothing sticks, sticking tells calls apart: one is made on the way just if an operation sticks
once that call does (`Operation.Calls`), and so the state of such a call is in a world as well.
-/
namespace TypedHandles

variable {S S' : Scope} {σ : World}

/-- An answer that is in scope unless it is a failure. -/
def AnswerInScope (S : Scope) (answer : Except Failure Value) : Prop :=
  Ends (fun _ => True) (Value.InScope S) answer

mutual

/-- Host code that uses what is in scope and what it is answered, and nothing else. -/
def HostTask.InScope (S : Scope) : HostTask → Prop
  | .done result => AnswerInScope S result
  | .ask question resume => question.InScope S ∧
    ∀ (S' : Scope) (answer : Except Failure Value), S.Grows S' → AnswerInScope S' answer →
      (resume answer).InScope S'

/-- An operation on what is in scope. A factory of lambdas is one whose shapes were checked. -/
def Operation.InScope (S : Scope) : Operation → Prop
  | .construct construction => construction.InScope S
  | .lambdaFactory _ factory implementation instantiated =>
    factory.WellFormed ∧ S.handle implementation ∧ instantiated.WellFormed ∧
      ∃ sam, Lambda.validate factory.params sam implementation instantiated = .ok ()
  | .perform action args => action.Scoped S args.length ∧ ∀ v ∈ args, v.InScope S
  | .invokeExact target args | .invoke target args => S.handle target ∧ ∀ v ∈ args, v.InScope S
  | .invokeAs target caller args =>
    S.handle target ∧ caller.WellFormed ∧ ∀ v ∈ args, v.InScope S
  | .newObject _ fields => ∀ v ∈ fields, v.InScope S
  | .setField _ _ value => value.InScope S
  | .newSite _ target => S.handle target
  | .newUnlinkedSite _ signature => signature.WellFormed
  | .siteTarget site => S.site site
  | .setTarget site target | .setTargetPlain site target | .setTargetFenced site target =>
    S.site site ∧ S.handle target
  | .registerStatic _ _ _ member => member.signature.WellFormed
  | .find lookup _ | .findMember lookup _ => S.registry lookup.registry
  | .cachedConstant cache _ value => S.cache cache ∧ value.InScope S
  | .cachedIdentity cache _ => S.cache cache
  | .bootstrap lookup point method => (method lookup point).InScope S
  | .resolve linker point method => (method linker.lookup point).InScope S
  | .link linker id point method =>
    S.point linker.id id point.signature ∧ (method linker.lookup point).InScope S
  | .invokePoint linker id point method args =>
    S.point linker.id id point.signature ∧ (method linker.lookup point).InScope S ∧
      ∀ v ∈ args, v.InScope S
  | .count counter => S.counter counter
  | .newThrowable _ _ | .getField _ _ | .suppress _ _ | .registerClass _ _ | .clearCache _
  | .unregister _ _ => True

end

/-- A host whose functions use what is in scope and the arguments, and nothing else. -/
def Host.InScope (S : Scope) (host : Host) : Prop :=
  ∀ (S' : Scope) (f : HostFunction) (args : List Value), S.Grows S' →
    (∀ v ∈ args, v.InScope S') → (host f args).InScope S'

/-! More in scope never hurts. -/

theorem forall_inScope_mono {vs : List Value} (grows : S.Grows S') (h : ∀ v ∈ vs, v.InScope S) :
    ∀ v ∈ vs, v.InScope S' :=
  fun v mem => (h v mem).mono grows

mutual

theorem HostTask.InScope.mono {task : HostTask} (grows : S.Grows S') (h : task.InScope S) :
    task.InScope S' := by
  match task with
  | .done (.ok v) => exact Value.InScope.mono grows h
  | .done (.error f) => trivial
  | .ask question resume =>
    exact ⟨Operation.InScope.mono grows h.1,
      fun S₂ answer grows₂ => h.2 S₂ answer (grows.trans grows₂)⟩
termination_by structural task

theorem Operation.InScope.mono {question : Operation} (grows : S.Grows S')
    (h : question.InScope S) : question.InScope S' := by
  match question with
  | .construct _ => exact Construction.InScope.mono grows h
  | .lambdaFactory .. => exact ⟨h.1, grows.handle _ h.2.1, h.2.2⟩
  | .perform .. => exact ⟨h.1.mono grows, forall_inScope_mono grows h.2⟩
  | .invokeExact .. => exact ⟨grows.handle _ h.1, forall_inScope_mono grows h.2⟩
  | .invoke .. => exact ⟨grows.handle _ h.1, forall_inScope_mono grows h.2⟩
  | .invokeAs .. => exact ⟨grows.handle _ h.1, h.2.1, forall_inScope_mono grows h.2.2⟩
  | .newObject .. => exact forall_inScope_mono grows h
  | .newThrowable .. => trivial
  | .getField .. => trivial
  | .setField .. => exact Value.InScope.mono grows h
  | .suppress .. => trivial
  | .newSite .. => exact grows.handle _ h
  | .newUnlinkedSite .. => exact h
  | .siteTarget .. => exact grows.site _ h
  | .setTarget .. => exact ⟨grows.site _ h.1, grows.handle _ h.2⟩
  | .setTargetPlain .. => exact ⟨grows.site _ h.1, grows.handle _ h.2⟩
  | .setTargetFenced .. => exact ⟨grows.site _ h.1, grows.handle _ h.2⟩
  | .registerStatic .. => exact h
  | .registerClass .. => trivial
  | .find .. => exact grows.registry _ h
  | .findMember .. => exact grows.registry _ h
  | .cachedConstant .. => exact ⟨grows.cache _ h.1, h.2.mono grows⟩
  | .cachedIdentity .. => exact grows.cache _ h
  | .clearCache _ => trivial
  | .bootstrap lookup point method => exact HostTask.InScope.mono grows h
  | .resolve linker point method => exact HostTask.InScope.mono grows h
  | .link linker _ point method =>
    exact ⟨grows.point _ _ _ h.1, HostTask.InScope.mono grows h.2⟩
  | .unregister .. => trivial
  | .invokePoint linker _ point method args =>
    exact ⟨grows.point _ _ _ h.1, HostTask.InScope.mono grows h.2.1,
      forall_inScope_mono grows h.2.2⟩
  | .count _ => exact grows.counter _ h
termination_by structural question

end

theorem Host.InScope.mono {host : Host} (grows : S.Grows S') (h : host.InScope S) :
    host.InScope S' :=
  fun S₂ f args grows₂ => h S₂ f args (grows.trans grows₂)

/-! Host code that asks and goes on only if it is answered. -/

namespace HostTask.InScope

theorem andThen {question : Operation} {next : Value → HostTask} (asks : question.InScope S)
    (goesOn : ∀ (S' : Scope) (v : Value), S.Grows S' → v.InScope S' → (next v).InScope S') :
    (HostTask.andThen question next).InScope S := by
  refine ⟨asks, fun S' answer grows inScope => ?_⟩
  cases answer with
  | ok v => exact goesOn S' v grows inScope
  | error failure => trivial

theorem last {question : Operation} (asks : question.InScope S) :
    (HostTask.last question).InScope S :=
  ⟨asks, fun _ _ _ inScope => inScope⟩

end HostTask.InScope

/-- The bootstrap of lambdas uses its static arguments and the cache of the lookup, and it makes a
factory of checked shapes alone. -/
theorem Lambda.bootstrap_inScope {lookup : Lookup} {point : Descriptor}
    (wf : point.signature.WellFormed) (cache : S.cache lookup.cache)
    (statics : ∀ v ∈ point.staticArgs, v.InScope S) :
    (Lambda.bootstrap lookup point).InScope S := by
  have published : ∀ (S' : Scope) (v : Value), v.InScope S' → (publishing v).InScope S' := by
    intro S' v inScope
    unfold publishing
    split
    · exact .last (Value.inScope_handle_iff.1 inScope)
    · exact inScope
  unfold bootstrap
  split
  · next sam implementation instantiated given =>
    rw [given] at statics
    have known : S.handle implementation := Value.inScope_handle_iff.1 (statics _ (by simp))
    have own : instantiated.WellFormed := by
      cases statics (.signature instantiated) (by simp) with
      | plain plain => cases plain
      | signature wf => exact wf
    dsimp only
    split
    · trivial
    split
    · trivial
    · next valid =>
      split
      · refine .andThen ⟨known, own⟩ fun S₁ made grows inScope => ?_
        exact .andThen ⟨grows.cache _ cache, inScope⟩ fun S₂ v _ => published S₂ v
      · exact .andThen ⟨wf, known, own, sam, valid⟩ fun S₁ v _ => published S₁ v
  · trivial

/-! Host code. -/

section

variable {run : Runner}

theorem announce_keeps {lookup : Lookup} {point : Descriptor} {x : Exec Value}
    {Q : World → Value → Prop} (h : ∀ τ, σ.Grows τ → Exec.Keeps τ x Q) :
    Exec.Keeps σ (announce lookup point x) Q :=
  (record_keeps fun _ => rfl).bind fun τ _ grows _ => h τ grows

mutual

/-- Host code that keeps to its contract is not stuck, and ends with what is in scope. -/
theorem HostTask.run_keeps {σ : World} {task : HostTask} (keeps : run.Keeps σ)
    (inScope : task.InScope σ.scope) :
    Exec.Keeps σ (task.run run) fun τ v => v.InScope τ.scope := by
  match task with
  | .done result =>
    refine (record_keeps fun _ => rfl).bind fun τ _ grows _ => .ofExcept (E := fun _ => True) ?_
    cases result with
    | ok v => exact Value.InScope.mono grows.scope inScope
    | error f => trivial
  | .ask question resume =>
    refine (Operation.answer_keeps keeps inScope.1).attempt.bind fun τ answer grows ends => ?_
    exact HostTask.run_keeps (keeps.mono grows) (inScope.2 τ.scope answer grows.scope ends)
termination_by structural task

/-- An operation on what is in scope is not stuck, and answers with what is in scope. -/
theorem Operation.answer_keeps {σ : World} {question : Operation} (keeps : run.Keeps σ)
    (inScope : question.InScope σ.scope) :
    Exec.Keeps σ (question.answer run) fun τ v => v.InScope τ.scope := by
  match question with
  | .construct construction =>
    exact (Exec.Keeps.ofBuild_handle (construction.build_keeps σ.scope_complete inScope)).bind
      fun _ _ _ known => .pure (.handle known)
  | .lambdaFactory name factory implementation instantiated =>
    have within : (Blueprint.ofAction factory
        (.intrinsic (.lambda name implementation instantiated))).Scoped σ.scope := by
      obtain ⟨wf, known, own, sam, valid⟩ := inScope
      refine Blueprint.ofAction_scoped wf ⟨Nat.zero_le _, ?_⟩
      rintro _ _ _ ⟨⟩
      exact ⟨known, own, (Lambda.fitting_of_validate valid).count_le⟩
    exact (Exec.Keeps.ofBuild_handle (Blueprint.make_keeps σ.scope_complete within)).bind
      fun _ _ _ known => .pure (.handle known)
  | .perform action args =>
    exact keeps σ (.action action) args (.refl σ) inScope.1 inScope.2
  | .invokeExact target args => exact Handle.invokeExact_keeps keeps inScope.1 inScope.2
  | .invoke target args => exact Handle.invoke_keeps keeps inScope.1 inScope.2
  | .invokeAs target caller args =>
    exact Handle.invokeAs_keeps keeps inScope.1 inScope.2.1 inScope.2.2
  | .newObject cls fields =>
    exact (newObject_keeps cls inScope).bind fun _ o _ _ => .pure (.object o)
  | .newThrowable cls message =>
    exact (newThrowable_keeps cls message).bind fun _ t _ _ => .pure (.throwable t)
  | .getField object index =>
    refine Exec.Keeps.get.bind fun τ s _ inWorld => .pure ?_
    cases found : s.field? object index with
    | none => exact .plain rfl
    | some v => exact inWorld.field found
  | .setField object index value =>
    exact (object.setField_keeps index inScope).bind fun _ _ _ _ => .pure (.plain rfl)
  | .suppress throwable other =>
    exact (throwable.suppress_keeps other).bind fun _ _ _ _ => .pure (.plain rfl)
  | .newSite kind target =>
    exact (siteFor_keeps kind inScope).bind fun _ _ _ made => .pure (.callSite made.1)
  | .newUnlinkedSite kind signature =>
    have made := @newSite_keeps σ kind signature none inScope nofun
    exact made.bind fun _ _ _ made => .pure (.callSite made.1)
  | .siteTarget site =>
    exact (site.target_keeps inScope).bind fun _ _ _ known => .pure (.handle known.1)
  | .setTarget site target =>
    exact (CallSite.setTarget_keeps inScope.1 inScope.2).bind fun _ _ _ _ => .pure (.plain rfl)
  | .setTargetPlain site target =>
    exact (CallSite.setTargetPlain_keeps inScope.1 inScope.2).bind
      fun _ _ _ _ => .pure (.plain rfl)
  | .setTargetFenced site target =>
    exact (CallSite.setTargetFenced_keeps inScope.1 inScope.2).bind
      fun _ _ _ _ => .pure (.plain rfl)
  | .registerStatic registry owner name member =>
    exact (registerStatic_keeps inScope).bind fun _ _ _ _ => .pure (.plain rfl)
  | .registerClass registry cls =>
    exact (registerClass_keeps registry cls).bind fun _ _ _ _ => .pure (.plain rfl)
  | .find lookup request =>
    exact (Lookup.find_keeps inScope request).bind fun _ _ _ known => .pure (.handle known)
  | .findMember lookup query =>
    exact (Lookup.findMember_keeps inScope query).bind fun _ _ _ known => .pure (.handle known)
  | .cachedConstant cache kind value =>
    exact (withCache_keeps inScope.1 fun c cached =>
      SharedHandles.constant_keeps σ.scope_complete cached kind inScope.2).bind
      fun _ _ _ known => .pure (.handle known)
  | .cachedIdentity cache kind =>
    exact (withCache_keeps inScope fun c cached =>
      SharedHandles.identity_keeps σ.scope_complete cached kind).bind
      fun _ _ _ known => .pure (.handle known)
  | .clearCache cache =>
    exact (clearCache_keeps cache).bind fun _ _ _ _ => .pure (.plain rfl)
  | .bootstrap lookup point method =>
    exact announce_keeps fun τ grows =>
      HostTask.run_keeps (keeps.mono grows) (HostTask.InScope.mono grows.scope inScope)
  | .resolve linker point method =>
    refine (Linker.resolve_keeps (announce_keeps fun τ grows =>
      HostTask.run_keeps (keeps.mono grows) (HostTask.InScope.mono grows.scope inScope))).bind
      fun _ _ _ made => .pure (.callSite made.1)
  | .link linker id point method =>
    refine (Linker.link_keeps inScope.1 fun τ grows => announce_keeps fun ρ grows' =>
      HostTask.run_keeps (keeps.mono (grows.trans grows'))
        (inScope.2.mono (grows.trans grows').scope)).bind fun _ _ _ typed => ?_
    exact .pure (.callSite typed.1)
  | .unregister linker id =>
    refine (Linker.unregister_keeps linker id).bind fun _ found _ known => .pure ?_
    cases found with
    | none => exact .plain rfl
    | some site => exact .callSite (known site rfl)
  | .invokePoint linker id point method args =>
    refine (Linker.link_keeps inScope.1 fun τ grows => announce_keeps fun ρ grows' =>
      HostTask.run_keeps (keeps.mono (grows.trans grows'))
        (inScope.2.1.mono (grows.trans grows').scope)).bind fun τ site grows typed => ?_
    refine (CallSite.target_keeps typed.1).bind fun ρ target grows' known => ?_
    exact Handle.invokeExact_keeps (keeps.mono (grows.trans grows')) known.1
      (forall_inScope_mono (grows.trans grows').scope inScope.2.2)
  | .count counter => exact count_keeps inScope
termination_by structural question

end

end

/-! The machine. -/

theorem callHost_keeps {run : Runner} {host : Host} (keeps : run.Keeps σ)
    (inScope : host.InScope σ.scope) (f : HostFunction) {args : List Value}
    (argsInScope : ∀ v ∈ args, v.InScope σ.scope) :
    Exec.Keeps σ (callHost host run f args) fun τ v => v.InScope τ.scope := by
  unfold callHost
  refine (record_keeps fun _ => rfl).bind fun τ _ grows _ => ?_
  exact HostTask.run_keeps (keeps.mono grows)
    (inScope τ.scope f args grows.scope (forall_inScope_mono grows.scope argsInScope))

/-- The machine is not stuck on code that is scoped, unless a watch makes it so. -/
theorem runWith_keeps {watch : Runner → Runner} {host : Host} (inScope : host.InScope σ.scope)
    (watches : ∀ run : Runner, run.Keeps σ → (watch run).Keeps σ) (n : Nat) :
    Runner.Keeps σ (runWith watch host n) := by
  induction n with
  | zero => exact fun _ _ _ _ _ _ => .exhausted
  | succ n ih =>
    refine watches _ fun τ code args grows within argsInScope => ?_
    have keeps := ih.mono grows
    cases code with
    | program s p =>
      exact Program.perform_keeps keeps within.1 ⟨argsInScope, within.2.symm⟩ n
    | action a =>
      refine Action.perform_keeps (fun ρ f args grows' argsInScope => ?_) within argsInScope
      exact callHost_keeps (keeps.mono grows')
        (inScope.mono (grows.trans grows').scope) f argsInScope

theorem runCode_keeps {host : Host} (inScope : host.InScope σ.scope) (n : Nat) :
    Runner.Keeps σ (runCode host n) :=
  runWith_keeps inScope (fun _ keeps => keeps) n

/-! States on the way. -/

open Classical in
/-- A watch under which one call is stuck, if it is made in the given state. -/
noncomputable def Runner.stuckAt (code : Code) (args : List Value) (u : State) (run : Runner) :
    Runner := fun code' args' s =>
  if (code', args', s) = (code, args, u) then (.error .stuck, s) else run code' args' s

/-- While an operation is performed in a state, a call is made in another one: with this call stuck,
all of it is, since nothing goes on after that. -/
def Operation.Calls (operation : Operation) (host : Host) (n : Nat) (s : State) (code : Code)
    (args : List Value) (u : State) : Prop :=
  (operation.answer (runWith (.stuckAt code args u) host n) s).1 = .error .stuck

/-- Every call that an operation makes on the way is of scoped code, in a state of the world. -/
theorem Operation.Calls.inWorld {operation : Operation} {host : Host} {n : Nat} {s u : State}
    {code : Code} {args : List Value} (calls : operation.Calls host n s code args u)
    (hostInScope : host.InScope σ.scope) (inScope : operation.InScope σ.scope)
    (start : s.InWorld σ) :
    ∃ τ, σ.Grows τ ∧ u.InWorld τ ∧ code.Scoped τ.scope args.length ∧
      ∀ v ∈ args, v.InScope τ.scope := by
  by_contra other
  have avoids : ∀ run : Runner, run.Keeps σ → (run.stuckAt code args u).Keeps σ := by
    intro run keeps τ code' args' grows within argsInScope t inWorld
    unfold Runner.stuckAt
    split
    · next same =>
      cases same
      exact absurd ⟨τ, grows, inWorld, within, argsInScope⟩ other
    · exact keeps τ code' args' grows within argsInScope t inWorld
  obtain ⟨τ, -, -, ends⟩ :=
    operation.answer_keeps (runWith_keeps hostInScope avoids n) inScope s start
  exact ends.of_eq_error calls

end TypedHandles
