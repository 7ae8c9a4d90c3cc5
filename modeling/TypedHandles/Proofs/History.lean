import TypedHandles.Proofs.Hosting

/-!
The states that a library can get into, with the values that its users hold by then. Every one of
them is sound, so whatever the users hold is typed.
-/
namespace TypedHandles

/-- The items of an array are parts of it, and so are their parts. -/
inductive Value.Holds : Value → Value → Prop
  | self (v : Value) : Holds v v
  | item {element : Kind} {items : List Value} {v w : Value} : v ∈ items → Holds v w →
      Holds (.array element items) w

/-- The things with an identity among some values and their parts. -/
def Among (values : List Value) : Known :=
  fun w => w.hasIdentity = true ∧ ∃ v ∈ values, v.Holds w

/-- What comes to hand by an outcome: a result, or what was thrown. -/
def gained : Except Halt Value → List Value
  | .ok v => [v]
  | .error (.failed (.thrown t)) => [.throwable t]
  | .error _ => []

/-- The states after any operations, with all that came to hand on the way. Each operation is on
what is at hand by then, and so is what the host uses, which may be another host each time. -/
inductive Reached (F : ClassLibrary) : List Value → State → Prop
  | start : Reached F [] .empty
  | perform {values : List Value} {s : State} {host : Host} (operation : Operation) (n : Nat) :
      Reached F values s → host.Uses F (Among values) → operation.Uses F (Among values) →
      Reached F (gained (operation.answer (runCode host n) s).1 ++ values)
        (operation.answer (runCode host n) s).2
  | newRegistry {values : List Value} {s : State} : Reached F values s →
      Reached F values (TypedHandles.newRegistry s).2
  | newCache {values : List Value} {s : State} : Reached F values s →
      Reached F values (TypedHandles.newCache s).2
  | newLinker {values : List Value} {s : State} {lookup : Lookup} {config : LinkerSwitches} :
      Reached F values s → Reached F values (TypedHandles.newLinker lookup config s).2
  /-- The record and the counters of the host are its own. -/
  | rewrite {values : List Value} {s : State} {counters : Array Nat} {journal : List Event} :
      Reached F values s → Reached F values { s with counters := counters, journal := journal }

variable {F : ClassLibrary} {K : Known}

theorem Value.known_of_holds {v w : Value} (holds : v.Holds w) (made : v.MadeOf F K)
    (identity : w.hasIdentity = true) : K w := by
  induction holds with
  | self v => exact (Value.madeOf_iff_of_hasIdentity identity).1 made
  | item mem _ ih => exact ih ((Value.madeOf_array_iff.1 made).2.2 _ mem) identity

theorem Among.grows {values : List Value} (made : ∀ v ∈ values, v.MadeOf F K) :
    (Among values).Grows K := by
  rintro w ⟨identity, v, mem, holds⟩
  exact Value.known_of_holds holds (made v mem) identity

/-- What came to hand last is at hand. -/
theorem Among.last {v : Value} {values : List Value} (identity : v.hasIdentity = true) :
    Among (v :: values) v :=
  ⟨identity, v, List.mem_cons_self, .self v⟩

/-- What was at hand is at hand later. -/
theorem Among.later {v w : Value} {values : List Value} (h : Among values v) :
    Among (w :: values) v := by
  obtain ⟨identity, u, mem, holds⟩ := h
  exact ⟨identity, u, List.mem_cons_of_mem w mem, holds⟩

theorem State.empty_sound : State.empty.Sound F (Among []) := by
  have none : ∀ v, ¬ Among [] v := by
    rintro v ⟨-, w, mem, -⟩
    cases mem
  exact {
    knowledge := {
      handle := fun _ known => absurd known (none _)
      object := fun _ known => absurd known (none _)
      throwable := fun _ known => absurd known (none _)
      site := fun _ known => absurd known (none _) }
    handles := {
      inside := fun _ known => absurd known (none _)
      unique := fun _ _ known => absurd known (none _)
      adapter := fun _ _ known => absurd known (none _) }
    site_inside := fun _ known => absurd known (none _)
    site_unique := fun _ _ known => absurd known (none _)
    target := fun _ _ known => absurd known (none _)
    fields := nofun
    registries := nofun
    caches := nofun
    links := nofun }

theorem gained_madeOf {outcome : Except Halt Value}
    (ends : Ends (Halt.MadeOf K) (Value.MadeOf F K) outcome) :
    ∀ v ∈ gained outcome, v.MadeOf F K := by
  unfold gained
  split
  · exact List.forall_mem_singleton.2 ends
  · next t => exact List.forall_mem_singleton.2 (Value.madeOf_throwable_iff.2 (ends t rfl))
  · exact List.forall_mem_nil _

/-- What stands in a longer array stood there before, or is the new item. -/
theorem getElem?_push {α : Type} {xs : Array α} {x y : α} {i : Nat}
    (found : (xs.push x)[i]? = some y) : xs[i]? = some y ∨ y = x := by
  rw [Array.getElem?_push] at found
  split at found
  · exact .inr (Option.some.inj found).symm
  · exact .inl found

/-- A host that uses what is at hand may use more. -/
theorem Host.Uses.mono {host : Host} {K' : Known} (grows : K.Grows K') (uses : host.Uses F K) :
    host.Uses F K' :=
  fun K₂ f args grows₂ => uses K₂ f args (grows.trans grows₂)

/-- A host whose functions do nothing. -/
def Host.idle : Host := fun _ _ => .value .void

theorem Host.idle_uses (F : ClassLibrary) (K : Known) : Host.idle.Uses F K :=
  fun _ _ _ _ _ _ => .plain rfl

/-- What users may do next: one more operation, or something new from the library. -/
inductive Advances (F : ClassLibrary) (values : List Value) (s : State) : List Value → State → Prop
  | perform {host : Host} (operation : Operation) (n : Nat) : host.Uses F (Among values) →
      operation.Uses F (Among values) →
      Advances F values s (gained (operation.answer (runCode host n) s).1 ++ values)
        (operation.answer (runCode host n) s).2
  | newRegistry : Advances F values s values (TypedHandles.newRegistry s).2
  | newCache : Advances F values s values (TypedHandles.newCache s).2
  | newLinker (lookup : Lookup) (config : LinkerSwitches) :
      Advances F values s values (TypedHandles.newLinker lookup config s).2
  | rewrite (counters : Array Nat) (journal : List Event) :
      Advances F values s values { s with counters := counters, journal := journal }

/-- Whatever users do next leaves a sound state, and they hold no less in it. -/
theorem Advances.sound {values values' : List Value} {s s' : State}
    (advances : Advances F values s values' s') (sound : s.Sound F K)
    (made : ∀ v ∈ values, v.MadeOf F K) :
    ∃ K', s'.Sound F K' ∧ ∀ v ∈ values', v.MadeOf F K' := by
  cases advances with
  | perform operation n hostUses uses =>
    have grows := Among.grows made
    obtain ⟨-, K', grows', sound', ends⟩ := Operation.answer_agree
      (runCode_agree (hostUses.mono grows) n) (uses.mono grows) _ sound
    refine ⟨K', sound', List.forall_mem_append.2 ⟨?_, forall_madeOf_mono grows' made⟩⟩
    exact gained_madeOf (ends.imp fun _ answers => answers.1)
  | newRegistry =>
    refine ⟨K, { sound with registries := fun i r found => ?_ }, made⟩
    rcases getElem?_push found with old | rfl
    · exact sound.registries i r old
    · exact ⟨List.forall_mem_nil _, List.forall_mem_nil _⟩
  | newCache =>
    refine ⟨K, { sound with caches := fun i c found => ?_ }, made⟩
    rcases getElem?_push found with old | rfl
    · exact sound.caches i c old
    · exact ⟨List.forall_mem_nil _, List.forall_mem_nil _⟩
  | newLinker lookup config =>
    refine ⟨K, { sound with links := fun i table found => ?_ }, made⟩
    rcases getElem?_push found with old | rfl
    · exact sound.links i table old
    · exact List.forall_mem_nil _
  | rewrite counters journal => exact ⟨K, { sound with }, made⟩

/-- Every state that is reached is sound, with all that its users hold. -/
theorem Reached.sound {values : List Value} {s : State} (reached : Reached F values s) :
    ∃ K, s.Sound F K ∧ ∀ v ∈ values, v.MadeOf F K := by
  induction reached with
  | start => exact ⟨_, State.empty_sound, List.forall_mem_nil _⟩
  | perform operation n _ hostUses uses ih =>
    obtain ⟨K, sound, made⟩ := ih
    exact (Advances.perform operation n hostUses uses).sound sound made
  | newRegistry _ ih =>
    obtain ⟨K, sound, made⟩ := ih
    exact Advances.newRegistry.sound sound made
  | newCache _ ih =>
    obtain ⟨K, sound, made⟩ := ih
    exact Advances.newCache.sound sound made
  | @newLinker _ _ lookup config _ ih =>
    obtain ⟨K, sound, made⟩ := ih
    exact (Advances.newLinker lookup config).sound sound made
  | @rewrite _ _ counters journal _ ih =>
    obtain ⟨K, sound, made⟩ := ih
    exact (Advances.rewrite counters journal).sound sound made

end TypedHandles
