import TypedHandles.Proofs.Retyping

/-!
Adaptation, and what is remembered of it. A handle remembers the last adapter that was made from it,
but nothing relies on that: an adapter that nobody holds may be gone by the next request
(`HandleTable.forget`).

So the memory makes no difference. A request is answered in one of four ways (`Handle.Answers`), and
whether it succeeds is decided by the two signatures alone; the adapter does the same whether it was
made just now, remembered, or the handle itself. This holds in every state that is reached by
anything that users do and by adapters that lapse in between (`WeaklyReached`).
-/
namespace TypedHandles

variable {F : ClassLibrary} {K : Known}

/-! Adapters that lapse. -/

namespace HandleTable

variable {t : HandleTable} {g h a : Handle}

/-- Forgets the adapter of a handle, which nobody holds. -/
def forget (t : HandleTable) (h : Handle) : HandleTable := ⟨t.adapters.setIfInBounds h.id none⟩

theorem size_forget : (t.forget h).adapters.size = t.adapters.size :=
  Array.size_setIfInBounds

/-- A handle under the same number loses its adapter, and no other one does. -/
theorem adapter?_forget : (t.forget g).adapter? h = if g.id = h.id then none else t.adapter? h := by
  unfold adapter? forget
  dsimp only
  rw [Array.getElem?_setIfInBounds]
  split
  · split <;> rfl
  · rfl

/-- A table that forgets remembers nothing new. -/
theorem Sound.forget (sound : t.Sound K) (g : Handle) : (t.forget g).Sound K where
  inside h known := by
    rw [size_forget]
    exact sound.inside h known
  unique := sound.unique
  adapter h a known found := by
    rw [adapter?_forget] at found
    split at found
    · cases found
    · exact sound.adapter h a known found

end HandleTable

/-- The states after anything that users do, where an adapter that is remembered may be gone at any
time. -/
inductive WeaklyReached (F : ClassLibrary) : List Value → State → Prop
  | start : WeaklyReached F [] .empty
  | advance {values values' : List Value} {s s' : State} : WeaklyReached F values s →
      Advances F values s values' s' → WeaklyReached F values' s'
  | lapse {values : List Value} {s : State} (h : Handle) : WeaklyReached F values s →
      WeaklyReached F values { s with handles := s.handles.forget h }

/-- Every such state is sound: what users do next keeps states sound, and so does forgetting. -/
theorem WeaklyReached.sound {values : List Value} {s : State} (reached : WeaklyReached F values s) :
    ∃ K, s.Sound F K ∧ ∀ v ∈ values, v.MadeOf F K := by
  induction reached with
  | start => exact ⟨_, State.empty_sound, List.forall_mem_nil _⟩
  | advance _ advances ih =>
    obtain ⟨K, sound, made⟩ := ih
    exact advances.sound sound made
  | lapse h _ ih =>
    obtain ⟨K, sound, made⟩ := ih
    exact ⟨K, { sound with handles := sound.handles.forget h }, made⟩

/-- Nothing needs to lapse. -/
theorem Reached.weakly {values : List Value} {s : State} (reached : Reached F values s) :
    WeaklyReached F values s := by
  induction reached with
  | start => exact .start
  | perform operation n _ hostUses uses ih => exact ih.advance (.perform operation n hostUses uses)
  | newRegistry _ ih => exact ih.advance .newRegistry
  | newCache _ ih => exact ih.advance .newCache
  | @newLinker _ _ lookup config _ ih => exact ih.advance (.newLinker lookup config)
  | @rewrite _ _ counters journal _ ih => exact ih.advance (.rewrite counters journal)

/-! What converts, kind by kind. -/

/-- A signature converts to another one if they are equal, or if the parameters convert one way and
the returns the other. -/
theorem Signature.isConvertibleTo_iff {s t : Signature} :
    s.isConvertibleTo t = true ↔ (s == t) = true ∨
      List.Forall₂ (fun own wanted => Kind.isConvertibleTo wanted own = true) s.params t.params ∧
        s.ret.isConvertibleTo t.ret = true := by
  simp only [isConvertibleTo, Bool.or_eq_true, Bool.and_eq_true, List.all_eq_true,
    List.forall₂_iff_zip, Prod.forall]
  rw [beq_iff_eq (a := s.arity)]
  rfl

namespace Handle

variable {h a : Handle} {wanted t : Signature} {table table' : HandleTable}

/-! Requests one after another. -/

/-- Requests to a handle, one after another, with whatever else happens to the table in between. The
latest request that made or found an adapter is kept, with this adapter, while it is remembered. -/
inductive Asked (h : Handle) : Option (Signature × Handle) → HandleTable → Prop
  | start {table : HandleTable} : h.id < table.adapters.size → Asked h none table
  | adapted {latest : Option (Signature × Handle)} {a : Handle} {table table' : HandleTable}
      (wanted : Signature) : Asked h latest table → ¬ (h.signature == wanted) = true →
      h.asType wanted table = (.ok a, table') → Asked h (some (wanted, a)) table'
  | own {latest : Option (Signature × Handle)} {outcome : Except Halt Handle}
      {table table' : HandleTable} (wanted : Signature) : Asked h latest table →
      (h.signature == wanted) = true → h.asType wanted table = (outcome, table') →
      Asked h latest table'
  | refused {latest : Option (Signature × Handle)} {e : Halt} {table table' : HandleTable}
      (wanted : Signature) : Asked h latest table → h.asType wanted table = (.error e, table') →
      Asked h latest table'
  /-- Another handle is asked for at a signature. -/
  | other {latest : Option (Signature × Handle)} {table : HandleTable} (g : Handle)
      (wanted : Signature) : Asked h latest table → g.id ≠ h.id →
      Asked h latest (g.asType wanted table).2
  /-- A handle is made. -/
  | make {latest : Option (Signature × Handle)} {table : HandleTable} : Asked h latest table →
      Asked h latest ⟨table.adapters.push none⟩
  /-- The adapter is gone. -/
  | lapse {latest : Option (Signature × Handle)} {table : HandleTable} : Asked h latest table →
      Asked h none (table.forget h)
  /-- The adapter of another handle is gone. -/
  | lapseOther {latest : Option (Signature × Handle)} {table : HandleTable} (g : Handle) :
      Asked h latest table → g.id ≠ h.id → Asked h latest (table.forget g)

/-- What a table remembers of a handle after some requests: the adapter of the latest one. -/
structure Remembers (h : Handle) (latest : Option (Signature × Handle)) (table : HandleTable) :
    Prop where
  inside : h.id < table.adapters.size
  latest : ∀ wanted a, latest = some (wanted, a) → ¬ (h.signature == wanted) = true ∧
    table.adapter? h = some a ∧ (a.signature == wanted) = true

variable {latest : Option (Signature × Handle)}

/-- What is remembered of a handle depends on its own place in the table. -/
theorem Remembers.of_adapter? (remembers : h.Remembers latest table)
    (grows : table.adapters.size ≤ table'.adapters.size)
    (same : table'.adapter? h = table.adapter? h) : h.Remembers latest table' :=
  ⟨Nat.lt_of_lt_of_le remembers.inside grows, by rw [same]; exact remembers.latest⟩

theorem Remembers.make (remembers : h.Remembers latest table) :
    h.Remembers latest ⟨table.adapters.push none⟩ :=
  remembers.of_adapter? (by simp) HandleTable.adapter?_push

/-- The table remembers what a request was answered by. -/
theorem Answers.remembers (answers : h.Answers wanted table (.ok a) table')
    (inside : h.id < table.adapters.size) (differ : ¬ (h.signature == wanted) = true) :
    h.Remembers (some (wanted, a)) table' := by
  cases answers with
  | own same => exact absurd same differ
  | kept _ found equal =>
    refine ⟨inside, fun _ _ eq => ?_⟩
    cases eq
    exact ⟨differ, found, equal⟩
  | made _ _ new =>
    have grown : h.id < (table.adapters.push none).size := by
      rw [Array.size_push]
      exact Nat.lt_succ_of_lt inside
    refine ⟨by rwa [HandleTable.size_remember], fun _ _ eq => ?_⟩
    cases eq
    refine ⟨differ, HandleTable.adapter?_remember grown, ?_⟩
    rw [new]
    exact BEq.rfl

/-- A request to another handle changes nothing about what is remembered. -/
theorem Answers.remembers_of_ne {g : Handle} {outcome : Except Halt Handle}
    (answers : g.Answers wanted table outcome table') (other : g.id ≠ h.id)
    (remembers : h.Remembers latest table) : h.Remembers latest table' := by
  cases answers with
  | own | kept | refused => exact remembers
  | made =>
    exact remembers.make.of_adapter? (Nat.le_of_eq HandleTable.size_remember.symm)
      (HandleTable.adapter?_remember_of_ne other)

/-- The table remembers the adapter of the latest request, by whatever else happened. -/
theorem Asked.remembers (asked : h.Asked latest table) : h.Remembers latest table := by
  induction asked with
  | start inside => exact ⟨inside, fun _ _ eq => by cases eq⟩
  | adapted wanted _ differ request ih =>
    exact (answers_of_asType request).remembers ih.inside differ
  | own wanted _ same request ih =>
    cases answers_of_asType request with
    | own => exact ih
    | kept differ | made differ | refused differ => exact absurd same differ
  | refused wanted _ request ih =>
    cases answers_of_asType request with
    | refused => exact ih
  | other g wanted _ other ih => exact (asType_answers g wanted _).remembers_of_ne other ih
  | make _ ih => exact ih.make
  | lapse _ ih =>
    refine ⟨?_, fun _ _ eq => by cases eq⟩
    rw [HandleTable.size_forget]
    exact ih.inside
  | lapseOther g _ other ih =>
    exact ih.of_adapter? (Nat.le_of_eq HandleTable.size_forget.symm)
      (by rw [HandleTable.adapter?_forget, if_neg other])

/-- A request that is made again is answered by the same handle. -/
theorem Asked.again (asked : h.Asked (some (t, a)) table) : h.asType t table = (.ok a, table) := by
  obtain ⟨differ, found, equal⟩ := asked.remembers.latest t a rfl
  rw [asType_eq table differ, found, Option.filter_some, if_pos equal]

/-! What an adapter does. -/

/-- Converts the arguments of a caller, invokes a handle on them and converts its result. -/
def convertedCall (run : Runner) (h : Handle) (caller : Signature) (args : List Value) :
    Exec Value := do
  let supplied ← Exec.ofExcept
    (Value.convertAll (args.zip (caller.params.zip h.signature.params)))
  let result ← h.invokeExact run supplied
  Exec.ofExcept (result.convert h.signature.ret caller.ret)

variable {args : List Value} {s : State} {host : Host} {n : Nat}

/-- What was converted is of the handle's parameters, so it is invoked exactly by being called. -/
theorem convertedCall_eq (own : h.signature.Valid F.Has) (valid : t.Valid F.Has)
    (arity : t.arity = h.arity) (fits : Fits F K args t.params) (run : Runner) :
    h.convertedCall run t args = h.through run [] t args := by
  unfold convertedCall through
  show (Exec.ofExcept (Value.convertAll (args.zip (t.params.zip h.signature.params))) >>= _) =
    (Exec.ofExcept (Value.convertAll (args.zip (t.params.zip h.signature.params))) >>= _)
  cases supplied : Value.convertAll (args.zip (t.params.zip h.signature.params)) with
  | error failure => rfl
  | ok values =>
    have fits' : Fits F K values h.signature.params := Value.fits_of_convertAll fits
      valid.params_over own.params_over arity supplied
    show (h.invokeExact run values >>= _) = (run.call h values >>= _)
    rw [h.invokeExact_of_conform run fits'.conform]

/-- What a handle is to another one whose calls it converts. -/
structure Adapts (F : ClassLibrary) (h a : Handle) : Prop where
  /-- The arguments are converted, the handle is invoked, its result is converted. -/
  invokeExact : ∀ ⦃values args : List Value⦄ ⦃s : State⦄ ⦃host : Host⦄, WeaklyReached F values s →
    Among values (.handle h) → host.Uses F (Among values) →
    (∀ v ∈ args, v.MadeOf F (Among values)) → Conform args a.signature.params → ∀ n,
      a.invokeExact (runCode host (n + h.layersFor a.signature)) args s =
        h.convertedCall (runCode host n) a.signature args s
  /-- The first argument that is not converted decides, and the handle is not invoked. -/
  firstFailure : ∀ (run : Runner) (s : State) (args : List Value)
    (before after : List (Value × Kind × Kind)) (v : Value) (wanted own : Kind) (failure : Failure),
    args.zip (a.signature.params.zip h.signature.params) = before ++ (v, wanted, own) :: after →
    (∀ item ∈ before, ∃ w, item.1.convert item.2.1 item.2.2 = .ok w) →
    v.convert wanted own = .error failure →
    h.convertedCall run a.signature args s = (.error (.failed failure), s)

end Handle

/-- Values are converted in order, so the first one that is not decides. -/
theorem Value.convertAll_of_firstFailure {before after : List (Value × Kind × Kind)} {v : Value}
    {source target : Kind} {failure : Failure}
    (converted : ∀ item ∈ before, ∃ w, item.1.convert item.2.1 item.2.2 = .ok w)
    (failed : v.convert source target = .error failure) :
    convertAll (before ++ (v, source, target) :: after) = .error failure := by
  induction before with
  | nil =>
    rw [List.nil_append, convertAll_cons, failed]
    rfl
  | cons item before ih =>
    obtain ⟨⟨w, here⟩, converted⟩ := List.forall_mem_cons.1 converted
    rw [List.cons_append, convertAll_cons, here, ih converted]
    rfl

namespace Handle

variable {h a : Handle} {t : Signature} {table table' : HandleTable} {s : State}

/-- A handle with the code that serves another signature converts between the two. -/
theorem adapts_of_code (own : h.signature.Valid F.Has) (valid : a.signature.Valid F.Has)
    (arity : a.arity = h.arity)
    (code : Code.program a.signature a.program = h.codeFor a.signature) : h.Adapts F a where
  invokeExact := by
    intro values args s host reached known uses made conform n
    obtain ⟨K, sound, valuesMade⟩ := reached.sound
    have grows := Among.grows valuesMade
    have fits : Fits F K args a.signature.params := ⟨conform, forall_madeOf_mono grows made⟩
    have yields := fun values (fits : Fits F K values h.signature.params) =>
      call_yields (uses.mono grows) sound (grows _ known) fits n
    rw [a.invokeExact_of_conform _ conform, call_eq host _ a a.signature, code,
      runCode_codeFor_through sound.knowledge own valid arity fits yields,
      convertedCall_eq own valid arity fits]
  firstFailure := by
    intro run s args before after v wanted own failure items converted failed
    rw [convertedCall, items, Value.convertAll_of_firstFailure converted failed]
    rfl

/-! Adaptation as a whole. -/

theorem signature_of_code (own : h.signature.Valid F.Has) (valid : t.Valid F.Has)
    (code : Code.program a.signature a.program = h.codeFor t) : a.signature = t := by
  unfold codeFor at code
  split at code
  · next same =>
    rw [(Code.program.inj code).1]
    exact (Signature.beq_iff own valid).1 same
  · exact (Code.program.inj code).1

/-- Signatures that convert have parameters one by one. -/
theorem arity_of_isConvertibleTo (own : h.signature.Valid F.Has) (valid : t.Valid F.Has)
    (convertible : h.signature.isConvertibleTo t = true) : t.arity = h.arity := by
  rcases Signature.isConvertibleTo_iff.1 convertible with same | ⟨params, -⟩
  · rw [← (Signature.beq_iff own valid).1 same]
    rfl
  · exact params.length_eq.symm

/-- What it comes to that a handle is asked for at a signature. -/
structure AdaptsTo (F : ClassLibrary) (h : Handle) (t : Signature) (table : HandleTable) :
    Prop where
  /-- The signatures alone decide. -/
  succeeds : (∃ a table', h.asType t table = (.ok a, table')) ↔ t = h.signature ∨
    List.Forall₂ (fun own wanted => Kind.isConvertibleTo wanted own = true) h.signature.params
        t.params ∧
      h.signature.ret.isConvertibleTo t.ret = true
  /-- Otherwise the signatures mismatch, and the same is remembered as before. -/
  fails : ∀ e table', h.asType t table = (.error e, table') →
    e = .failed (.signatureMismatch t h.signature) ∧ table' = table
  /-- A handle serves its own signature. -/
  own : t = h.signature → h.asType t table = (.ok h, table)
  /-- Whatever is remembered, the answer is of the signature and converts. -/
  adapts : ∀ a table', h.asType t table = (.ok a, table') → a.signature = t ∧ h.Adapts F a
  /-- The latest request is answered by the same handle again, while it is remembered. -/
  again : ∀ a, h.Asked (some (t, a)) table → h.asType t table = (.ok a, table)

/-- Adaptation under loose conversion, in every state that is reached. -/
theorem asType_transparent {values : List Value} (reached : WeaklyReached F values s)
    (known : Among values (.handle h)) (valid : t.Valid F.Has) : h.AdaptsTo F t s.handles := by
  obtain ⟨K, sound, valuesMade⟩ := reached.sound
  have known' := Among.grows valuesMade _ known
  have own := (sound.knowledge.handle h known').valid
  have recalls := sound.handles.recalls sound.knowledge known' valid
  have same : (h.signature == t) = true ↔ t = h.signature :=
    (Signature.beq_iff own valid).trans eq_comm
  have decided := Signature.isConvertibleTo_iff.trans (or_congr_left same)
  have served : t = h.signature → h.asType t s.handles = (.ok h, s.handles) :=
    fun equal => asType_of_beq (same.2 equal) s.handles
  cases convertible : h.signature.isConvertibleTo t with
  | true =>
    obtain ⟨a, table, asked, -, code⟩ := asType_of_isConvertibleTo recalls convertible
    have signature := signature_of_code own valid code
    have arity := arity_of_isConvertibleTo own valid convertible
    have adapts : h.Adapts F a := by
      subst signature
      exact adapts_of_code own valid arity code
    rw [convertible] at decided
    refine ⟨⟨fun _ => decided.1 rfl, fun _ => ⟨a, table, asked⟩⟩, ?_, served, ?_,
      fun a again => again.again⟩
    · intro e table' failed
      cases asked.symm.trans failed
    · intro a' table' asked'
      cases asked.symm.trans asked'
      exact ⟨signature, adapts⟩
  | false =>
    have refused := asType_of_not_isConvertibleTo recalls convertible
    rw [convertible] at decided
    refine ⟨⟨?_, fun converts => by cases decided.2 converts⟩, ?_, served, ?_,
      fun a again => again.again⟩
    · rintro ⟨a, table, asked⟩
      cases refused.symm.trans asked
    · intro e table failed
      cases refused.symm.trans failed
      exact ⟨rfl, rfl⟩
    · intro a table asked
      cases refused.symm.trans asked

/-- A handle over numbers is adapted to objects, a request for another arity is refused in between,
and the adapter is found again: it unboxes what is a number and throws at what is none. -/
theorem asType_transparent_unboxing :
    ∃ (values : List Value) (s : State) (h a : Handle),
      WeaklyReached .builtin values s ∧ Among values (.handle h) ∧
      h.signature = ⟨.prim .long, [.prim .long]⟩ ∧
      h.AdaptsTo .builtin ⟨.object, [.object]⟩ s.handles ∧
      h.asType ⟨.object, [.object]⟩ s.handles = (.ok a, s.handles) ∧
      (a.invokeExact (runCode .echo 4) [.int 1] s).1 = .ok (.long 1) ∧
      a.invokeExact (runCode .echo 4) [.str "one"] s =
        (.error (.failed (.classCast "String" "long")), s) := by
  have own : Signature.Valid ClassLibrary.builtin.Has ⟨.prim .long, [.prim .long]⟩ :=
    ⟨⟨by decide, by simp⟩, Kind.over_prim, by simp⟩
  have wanted : Signature.Valid ClassLibrary.builtin.Has ⟨.object, [.object]⟩ :=
    ⟨⟨by decide, by simp [Kind.object]⟩, by simp [Kind.object, RefType.Over],
      by simp [Kind.object, RefType.Over]⟩
  have other : Signature.Valid ClassLibrary.builtin.Has ⟨.object, []⟩ :=
    ⟨⟨by decide, by simp⟩, by simp [Kind.object, RefType.Over], by simp⟩
  have idle := Host.idle_uses .builtin
  have made := Reached.start.perform (.construct (.ofAction ⟨.prim .long, [.prim .long]⟩
    (.host ⟨0, "echo"⟩))) 1 (idle _) ⟨own, trivial⟩
  have adapted := made.perform (.construct (.asType _ ⟨.object, [.object]⟩)) 1 (idle _)
    ⟨Among.last rfl, wanted⟩
  have refused := adapted.perform (.construct (.asType _ ⟨.object, []⟩)) 1 (idle _)
    ⟨(Among.last rfl).later, other⟩
  let h : Handle := ⟨0, ⟨.prim .long, [.prim .long]⟩,
    (Blueprint.ofAction ⟨.prim .long, [.prim .long]⟩ (.host ⟨0, "echo"⟩)).program, false⟩
  have transparent := asType_transparent (h := h) refused.weakly (Among.last rfl).later wanted
  have start : h.Asked none ⟨#[none]⟩ := .start (by decide)
  have first := start.adapted ⟨.object, [.object]⟩ (by decide) rfl
  have second := first.refused ⟨.object, []⟩ rfl
  have again := transparent.again _ second
  have adapts := (transparent.adapts _ _ again).2
  have number : Conform [.int 1] [.object] := .cons rfl .nil
  have text : Conform [.str "one"] [.object] := .cons rfl .nil
  have unboxed := adapts.invokeExact refused.weakly (Among.last rfl).later (Host.echo_uses _ _)
    (List.forall_mem_singleton.2 (.plain (by rfl))) number 3
  have thrown := adapts.invokeExact refused.weakly (Among.last rfl).later (Host.echo_uses _ _)
    (List.forall_mem_singleton.2 (.plain (by rfl))) text 3
  have failed := fun s => adapts.firstFailure (runCode .echo 3) s [.str "one"] [] [] (.str "one")
    .object (.prim .long) _ rfl (List.forall_mem_nil _) rfl
  exact ⟨_, _, h, _, refused.weakly, (Among.last rfl).later, rfl, transparent, again,
    congrArg Prod.fst unboxed, thrown.trans (failed _)⟩

end Handle
end TypedHandles
