import TypedHandles.Proofs.ScopedHosts
import TypedHandles.Proofs.History

/-!
The states that a library can get into when its users keep to what they hold, whatever the kinds:
between two operations, and in the middle of one.

Classes may share names here, arrays may hold anything, and functions of the host may answer what
they like. Every handle is still scoped, and no invocation of one is ever stuck.
-/
namespace TypedHandles

/-- What users may use: what they hold and its parts, the registries, caches and counters that there
are, and the signatures at which each point of a linker may be linked. -/
def Scope.held (point : Nat → UInt64 → Signature → Prop) (values : List Value) (s : State) :
    Scope where
  handle h := Among values (.handle h)
  site c := Among values (.callSite c)
  registry i := i < s.registries.size
  cache i := i < s.caches.size
  counter i := i < s.counters.size
  point := point

section

variable (point : Nat → UInt64 → Signature → Prop)

/-- A run of operations from a state on, with all that its users hold. Each operation is on what
they hold by then, and so is what the host uses, which may be another host each time. A run may stop
in the middle of an operation, where code is called; if this is host code, then what it asks for is
the next operation. -/
inductive Run (values₀ : List Value) (s₀ : State) : List Value → State → Prop
  | refl : Run values₀ s₀ values₀ s₀
  | perform {values : List Value} {s : State} {host : Host} (operation : Operation) (n : Nat) :
      Run values₀ s₀ values s → host.InScope (.held point values s) →
      operation.InScope (.held point values s) →
      Run values₀ s₀ (gained (operation.answer (runCode host n) s).1 ++ values)
        (operation.answer (runCode host n) s).2
  | during {values args : List Value} {s u : State} {host : Host} {n : Nat} {code : Code}
      (operation : Operation) : Run values₀ s₀ values s → host.InScope (.held point values s) →
      operation.InScope (.held point values s) → operation.Calls host n s code args u →
      Run values₀ s₀ (args ++ values) u
  /-- Whatever is noted in the journal, apart from new targets of call sites. -/
  | noted {values : List Value} {s : State} (e : Event) : Run values₀ s₀ values s →
      (∀ i, e.newTarget? i = none) → Run values₀ s₀ values { s with journal := e :: s.journal }
  | newRegistry {values : List Value} {s : State} : Run values₀ s₀ values s →
      Run values₀ s₀ values (TypedHandles.newRegistry s).2
  | newCache {values : List Value} {s : State} : Run values₀ s₀ values s →
      Run values₀ s₀ values (TypedHandles.newCache s).2
  | newLinker {values : List Value} {s : State} (lookup : Lookup) (config : LinkerSwitches) :
      Run values₀ s₀ values s →
      Run values₀ s₀ values (TypedHandles.newLinker lookup config s).2
  /-- The counters of the host are its own. -/
  | newCounter {values : List Value} {s : State} (start : Nat) : Run values₀ s₀ values s →
      Run values₀ s₀ values { s with counters := s.counters.push start }

/-- The states after any operations, with all that the users hold by then. -/
abbrev Attained : List Value → State → Prop := Run point [] .empty

end

variable {point : Nat → UInt64 → Signature → Prop} {σ : World}

/-! Every run stays in a world. -/

/-- An operation that succeeds hands its answer to the users. -/
theorem Run.performed {values₀ values : List Value} {s₀ s t : State} {host : Host} {v : Value}
    (run : Run point values₀ s₀ values s) (operation : Operation) (n : Nat)
    (hostInScope : host.InScope (.held point values s))
    (inScope : operation.InScope (.held point values s))
    (done : operation.answer (runCode host n) s = (.ok v, t)) :
    Run point values₀ s₀ (v :: values) t := by
  have next := run.perform operation n hostInScope inScope
  rw [done] at next
  exact next

theorem Value.inScope_of_holds {S : Scope} {v w : Value} (holds : v.Holds w) (h : v.InScope S) :
    w.InScope S := by
  induction holds with
  | self v => exact h
  | item mem _ ih => exact ih (Value.inScope_array_iff.1 h _ mem)

/-- What users may use is in the scope of the world that their state is in. -/
theorem Scope.held_grows {values : List Value} {s : State} (inWorld : s.InWorld σ)
    (inScope : ∀ v ∈ values, v.InScope σ.scope) :
    (Scope.held σ.point values s).Grows σ.scope where
  handle h := by
    rintro ⟨-, v, mem, holds⟩
    exact Value.inScope_handle_iff.1 (Value.inScope_of_holds holds (inScope v mem))
  site c := by
    rintro ⟨-, v, mem, holds⟩
    exact Value.inScope_callSite_iff.1 (Value.inScope_of_holds holds (inScope v mem))
  registry _ inside := Nat.lt_of_lt_of_eq inside inWorld.registry_count
  cache _ inside := Nat.lt_of_lt_of_eq inside inWorld.cache_count
  counter _ inside := Nat.lt_of_lt_of_eq inside inWorld.counter_count
  point _ _ _ known := known

theorem gained_inScope {S : Scope} {outcome : Except Halt Value}
    (ends : Ends Halt.Proper (Value.InScope S) outcome) : ∀ v ∈ gained outcome, v.InScope S := by
  unfold gained
  split
  · exact List.forall_mem_singleton.2 ends
  · exact List.forall_mem_singleton.2 (.throwable _)
  · exact List.forall_mem_nil _

/-- The world without anything. -/
def World.empty (point : Nat → UInt64 → Signature → Prop) : World := ⟨[], 0, 0, 0, point⟩

theorem State.empty_inWorld : State.empty.InWorld (.empty point) where
  handles := nofun
  site_count := rfl
  registry_count := rfl
  cache_count := rfl
  counter_count := rfl
  cells := nofun
  noted := nofun
  fields := nofun
  statics := nofun
  caches := nofun
  links := nofun

/-- Registries, caches, counters and linkers are added, and nothing else. -/
theorem State.InWorld.widen {s : State} (inWorld : s.InWorld σ) {registries : Array Registry}
    {caches : Array SharedHandles} {counters : Array Nat} {linkers : Array LinkTable}
    (moreRegistries : s.registries.size ≤ registries.size)
    (moreCaches : s.caches.size ≤ caches.size)
    (moreCounters : s.counters.size ≤ counters.size)
    (registry : ∀ (i : Nat) (r : Registry), registries[i]? = some r →
      s.registries[i]? = some r ∨ r = .empty)
    (cache : ∀ (i : Nat) (c : SharedHandles), caches[i]? = some c →
      s.caches[i]? = some c ∨ c = .empty)
    (linker : ∀ (i : Nat) (table : LinkTable), linkers[i]? = some table →
      s.linkers[i]? = some table ∨ table = []) :
    ∃ τ, σ.Grows τ ∧ State.InWorld τ
      { s with registries := registries, caches := caches, counters := counters,
               linkers := linkers } := by
  let τ : World := { σ with
    registries := registries.size, caches := caches.size, counters := counters.size }
  have grows : σ.Grows τ := {
    sites := List.prefix_rfl
    registries := inWorld.registry_count ▸ moreRegistries
    caches := inWorld.cache_count ▸ moreCaches
    counters := inWorld.counter_count ▸ moreCounters
    point := rfl }
  refine ⟨τ, grows, {
    handles := fun i a found => grows.scope.handle a (inWorld.handles i a found)
    site_count := inWorld.site_count
    registry_count := rfl
    cache_count := rfl
    counter_count := rfl
    cells := fun i o cell origin found => (inWorld.cells i o cell origin found).mono grows.scope
    noted := fun c h mem => (inWorld.noted c h mem).imp_left grows.site
    fields := fun o v mem => (inWorld.fields o v mem).mono grows.scope
    statics := fun i r found => ?_
    caches := fun i c found => ?_
    links := fun i table found => ?_ }⟩
  · rcases registry i r found with old | rfl
    · exact inWorld.statics i r old
    · exact List.forall_mem_nil _
  · rcases cache i c found with old | rfl
    · exact (inWorld.caches i c old).mono grows.scope
    · exact ⟨List.forall_mem_nil _, List.forall_mem_nil _⟩
  · rcases linker i table found with old | rfl
    · intro e mem
      obtain ⟨site, linked⟩ := inWorld.links i table old e mem
      exact ⟨grows.site site, linked⟩
    · exact List.forall_mem_nil _

/-- A run from a state of a world ends in one, with what the users hold in scope. -/
theorem Run.inWorld {values₀ values : List Value} {s₀ s : State}
    (run : Run σ.point values₀ s₀ values s) (start : s₀.InWorld σ)
    (held : ∀ v ∈ values₀, v.InScope σ.scope) :
    ∃ τ, σ.Grows τ ∧ s.InWorld τ ∧ ∀ v ∈ values, v.InScope τ.scope := by
  have widened : ∀ {values : List Value} {t : State} {τ : World}, σ.Grows τ →
      (∀ v ∈ values, v.InScope τ.scope) → (∃ ρ, τ.Grows ρ ∧ t.InWorld ρ) →
      ∃ ρ, σ.Grows ρ ∧ t.InWorld ρ ∧ ∀ v ∈ values, v.InScope ρ.scope := by
    rintro values t τ grows held ⟨ρ, grows', inWorld⟩
    exact ⟨ρ, grows.trans grows', inWorld, forall_inScope_mono grows'.scope held⟩
  induction run with
  | refl => exact ⟨σ, .refl σ, start, held⟩
  | perform operation n _ host inScope ih =>
    obtain ⟨τ, grows, inWorld, held⟩ := ih
    have offered := Scope.held_grows inWorld held
    rw [grows.point] at offered
    obtain ⟨ρ, grows', inWorld', ends⟩ := Operation.answer_keeps
      (runCode_keeps (host.mono offered) n) (inScope.mono offered) _ inWorld
    exact ⟨ρ, grows.trans grows', inWorld', List.forall_mem_append.2
      ⟨gained_inScope ends, forall_inScope_mono grows'.scope held⟩⟩
  | during operation _ host inScope calls ih =>
    obtain ⟨τ, grows, inWorld, held⟩ := ih
    have offered := Scope.held_grows inWorld held
    rw [grows.point] at offered
    obtain ⟨ρ, grows', inWorld', -, argsInScope⟩ :=
      calls.inWorld (host.mono offered) (inScope.mono offered) inWorld
    exact ⟨ρ, grows.trans grows', inWorld', List.forall_mem_append.2
      ⟨argsInScope, forall_inScope_mono grows'.scope held⟩⟩
  | noted e _ plain ih =>
    obtain ⟨τ, grows, inWorld, held⟩ := ih
    obtain ⟨ρ, grows', inWorld', -⟩ := record_keeps plain _ inWorld
    exact ⟨ρ, grows.trans grows', inWorld', forall_inScope_mono grows'.scope held⟩
  | newRegistry _ ih =>
    obtain ⟨τ, grows, inWorld, held⟩ := ih
    exact widened grows held (inWorld.widen (by simp) (Nat.le_refl _) (Nat.le_refl _)
      (fun _ _ => getElem?_push) (fun _ _ => .inl) fun _ _ => .inl)
  | newCache _ ih =>
    obtain ⟨τ, grows, inWorld, held⟩ := ih
    exact widened grows held (inWorld.widen (Nat.le_refl _) (by simp) (Nat.le_refl _)
      (fun _ _ => .inl) (fun _ _ => getElem?_push) fun _ _ => .inl)
  | newLinker _ _ _ ih =>
    obtain ⟨τ, grows, inWorld, held⟩ := ih
    exact widened grows held (inWorld.widen (Nat.le_refl _) (Nat.le_refl _) (Nat.le_refl _)
      (fun _ _ => .inl) (fun _ _ => .inl) fun _ _ => getElem?_push)
  | newCounter first _ ih =>
    obtain ⟨τ, grows, inWorld, held⟩ := ih
    exact widened grows held (inWorld.widen (Nat.le_refl _) (Nat.le_refl _) (by simp)
      (fun _ _ => .inl) (fun _ _ => .inl) fun _ _ => .inl)

/-- Every state that is attained is in a world, with all that the users hold in scope. -/
theorem Attained.inWorld {values : List Value} {s : State} (attained : Attained point values s) :
    ∃ σ, σ.point = point ∧ s.InWorld σ ∧ (∀ v ∈ values, v.InScope σ.scope) ∧
      (Scope.held point values s).Grows σ.scope := by
  obtain ⟨σ, grows, inWorld, held⟩ :=
    Run.inWorld (σ := .empty point) attained State.empty_inWorld (List.forall_mem_nil _)
  have offered := Scope.held_grows inWorld held
  rw [grows.point] at offered
  exact ⟨σ, grows.point, inWorld, held, offered⟩

/-! Scoped handles, and runs of them. -/

/-- Every handle that users hold is scoped: its program has as many parameters as its signature, at
most 254, each step reads slots that are bound before it, and calls handles of the same sort with as
many values as they take. So no invocation of it is stuck, with any arguments. -/
theorem Attained.wellScoped {values : List Value} {s : State}
    (attained : Attained point values s) :
    ∃ S : Scope,
      (∀ h, Among values (.handle h) → S.handle h) ∧
      (∀ h, S.handle h → h.Scoped S ∧ h.program.arity = h.signature.arity ∧
        h.signature.arity ≤ 254 ∧
        ∀ (i : Nat) (b : Binding), h.program.bindings[i]? = some b →
          b.step.Scoped S (h.signature.arity + i)) ∧
      (∀ c target, S.site c → s.target? c = some target →
        S.handle target ∧ target.arity = c.signature.arity) ∧
      (∀ (plan : LoopPlan) (count : Nat), plan.Scoped S count → plan.KeepsFrame count) ∧
      ∀ (host : Host) (n : Nat) (h : Handle) (args : List Value),
        host.InScope (.held point values s) → Among values (.handle h) →
        (∀ v ∈ args, v.InScope (.held point values s)) →
        (h.invokeExact (runCode host n) args s).1 ≠ .error .stuck ∧
        (h.invoke (runCode host n) args s).1 ≠ .error .stuck ∧
        ∀ caller : Signature, caller.WellFormed →
          (h.invokeAs (runCode host n) caller args s).1 ≠ .error .stuck := by
  obtain ⟨σ, -, inWorld, -, offered⟩ := attained.inWorld
  have moves : ∀ {x : Exec Value} {Q : World → Value → Prop}, Exec.Keeps σ x Q →
      (x s).1 ≠ .error .stuck := by
    intro x Q keeps stuck
    obtain ⟨τ, -, -, ends⟩ := keeps s inWorld
    exact ends.of_eq_error stuck
  refine ⟨σ.scope, offered.handle, fun h known => ?_, fun c target site found => ?_,
    fun plan count within => within.keepsFrame,
    fun host n h args hostInScope known argsInScope => ?_⟩
  · have fits := (σ.scope_complete.handle_iff h).1 known
    exact ⟨fits, fits.blueprint.program.arity_eq, fits.blueprint.wellFormed.arity_le,
      bindingsScoped_iff.1 fits.blueprint.program.bindings⟩
  · obtain ⟨known, same⟩ := inWorld.target site found
    exact ⟨known, Signature.arity_congr same⟩
  · have keeps := runCode_keeps (hostInScope.mono offered) n
    have known := offered.handle h known
    have argsInScope := forall_inScope_mono offered argsInScope
    exact ⟨moves (Handle.invokeExact_keeps keeps known argsInScope),
      moves (Handle.invoke_keeps keeps known argsInScope),
      fun caller wf => moves (Handle.invokeAs_keeps keeps known wf argsInScope)⟩

theorem Host.idle_inScope (S : Scope) : Host.idle.InScope S := fun _ _ _ _ _ => .plain rfl

/-- A function behind a call site that was made for it. -/
theorem Attained.wellScoped_throughSite :
    ∃ (values : List Value) (s t : State) (h : Handle), Attained (fun _ _ _ => True) values s ∧
      Among values (.handle h) ∧ (∃ S : Scope, S.handle h ∧ h.Scoped S) ∧
      h.invoke (runCode .idle 6) [.int 41] s = (.ok (.int 42), t) ∧
      (h.invoke (runCode .idle 6) [.null] s).1 ≠ .error .stuck := by
  have wf : Signature.WellFormed ⟨.prim .int, [.prim .int]⟩ := ⟨by decide, by simp⟩
  have start : Attained (fun _ _ _ => True) [] .empty := .refl
  have made := start.perform
    (.construct (.ofAction ⟨.prim .int, [.prim .int]⟩ (.intrinsic .intIncrement))) 1
    (Host.idle_inScope _) ⟨wf, Nat.le_refl 1, nofun⟩
  have placed := made.perform (.newSite .mutable _) 1 (Host.idle_inScope _) (Among.last rfl)
  have invoker := placed.perform (.construct (.dynamicInvoker _)) 1 (Host.idle_inScope _)
    (Among.last rfl)
  obtain ⟨S, known, fits, -, -, moves⟩ := Attained.wellScoped invoker
  have here := known _ (Among.last rfl)
  refine ⟨_, _, _, _, invoker, Among.last rfl, ⟨S, here, (fits _ here).1⟩, rfl, ?_⟩
  refine (moves .idle 6 _ [.null] (Host.idle_inScope _) (Among.last rfl) ?_).2.1
  exact List.forall_mem_singleton.2 (.plain rfl)

end TypedHandles
