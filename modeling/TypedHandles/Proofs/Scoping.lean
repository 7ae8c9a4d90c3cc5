import TypedHandles.Proofs.SameKinds
import TypedHandles.Proofs.Refusal

/-!
Scopes of programs. A step is scoped over the width of the frame that it runs on: it reads slots of
that frame, and it passes each handle that it calls as many values as the handle takes. A program is
scoped over the arity of a signature, and a handle when its program is scoped over its own.

Nothing is said about kinds here, so classes may share names and arrays may hold anything. What may
be called is given by a `Scope`, and whatever is in a `World`, where handles are scoped themselves,
is given by `World.scope`.
-/
namespace TypedHandles

/-- What code may use: handles and call sites, the numbers of registries, caches and counters, and
for each point of a linker the signatures at which it may be linked. -/
structure Scope where
  handle : Handle → Prop
  site : CallSite → Prop
  registry : Nat → Prop
  cache : Nat → Prop
  counter : Nat → Prop
  point : Nat → UInt64 → Signature → Prop

/-- A scope has all that another one has. -/
structure Scope.Grows (S S' : Scope) : Prop where
  handle : ∀ h, S.handle h → S'.handle h
  site : ∀ c, S.site c → S'.site c
  registry : ∀ i, S.registry i → S'.registry i
  cache : ∀ i, S.cache i → S'.cache i
  counter : ∀ i, S.counter i → S'.counter i
  point : ∀ l p s, S.point l p s → S'.point l p s

/-- A value that holds nothing but handles and call sites in scope. -/
inductive Value.InScope (S : Scope) : Value → Prop
  | plain {v : Value} : v.isPlain = true → InScope S v
  | object (o : ObjectRef) : InScope S (.object o)
  | throwable (t : Throwable) : InScope S (.throwable t)
  | array {element : Kind} {items : List Value} : (∀ v ∈ items, InScope S v) →
      InScope S (.array element items)
  | signature {s : Signature} : s.WellFormed → InScope S (.signature s)
  | handle {h : Handle} : S.handle h → InScope S (.handle h)
  | callSite {c : CallSite} : S.site c → InScope S (.callSite c)

/-- Slots of a frame of the given width, as many as are wanted. -/
structure Passes (width : Nat) (args : List Slot) (count : Nat) : Prop where
  inside : ∀ slot ∈ args, slot < width
  length_eq : args.length = count

/-- How many arguments a function of the library looks at. -/
def Intrinsic.needs : Intrinsic → Nat
  | throwArgument | lambda _ _ _ => 0
  | arrayLength | intIncrement => 1
  | arrayItem | intLess => 2

/-- An action on the given number of arguments. A lambda captures no more than its implementation
takes. -/
def Action.Scoped (S : Scope) (count : Nat) : Action → Prop
  | .intrinsic f => f.needs ≤ count ∧
    ∀ name implementation instantiated, f = .lambda name implementation instantiated →
      S.handle implementation ∧ instantiated.WellFormed ∧ count ≤ implementation.arity
  | _ => True

/-- How many values a cleanup takes ahead of the arguments: the failure, and a result if there is
one. -/
def aheadOf (ret : Kind) : Nat := if ret.isVoid then 1 else 2

/-- A clause of a loop with so many variables over the given number of parameters. -/
structure LoopClause.Scoped (S : Scope) (carried count : Nat) (c : LoopClause) : Prop where
  known : ∀ h ∈ c.functions, S.handle h
  init_arity : ∀ init, c.init = some init → init.arity ≤ count
  body_arity : ∀ f ∈ c.bodyFunctions, f.arity ≤ carried + count

/-- A loop over the given number of parameters. -/
structure LoopPlan.Scoped (S : Scope) (count : Nat) (plan : LoopPlan) : Prop where
  clauses : ∀ c ∈ plan.clauses, c.Scoped S plan.carried.length count
  slots_eq : plan.slots = assignSlots 0 plan.clauses
  carried_eq : plan.carried = carriedKinds plan.clauses

/-- A step on a frame of the given width. -/
inductive Step.Scoped (S : Scope) (width : Nat) : Step → Prop
  | const {v : Value} : v.InScope S → Scoped S width (.const v)
  | convert {slot : Slot} {source target : Kind} : slot < width →
      Scoped S width (.convert slot source target)
  | leaf {action : Action} {args : List Slot} : action.Scoped S args.length →
      (∀ slot ∈ args, slot < width) → Scoped S width (.leaf action args)
  | call {target : Handle} {args : List Slot} : S.handle target →
      Passes width args target.arity → Scoped S width (.call target args)
  | branch {test target fallback : Handle} {args : List Slot} : S.handle test →
      S.handle target → S.handle fallback → Passes width args target.arity →
      fallback.arity = target.arity → test.arity ≤ args.length →
      Scoped S width (.branch test target fallback args)
  | catching {target handler : Handle} {exception : RefType} {args : List Slot} :
      S.handle target → S.handle handler → Passes width args target.arity →
      1 ≤ handler.arity → handler.arity ≤ args.length + 1 →
      Scoped S width (.catching target exception handler args)
  | finishing {target cleanup : Handle} {args : List Slot} : S.handle target →
      S.handle cleanup → Passes width args target.arity →
      aheadOf target.signature.ret ≤ cleanup.arity →
      cleanup.arity ≤ args.length + aheadOf target.signature.ret →
      Scoped S width (.finishing target cleanup args)
  | loop {plan : LoopPlan} {args : List Slot} : plan.Scoped S args.length →
      (∀ slot ∈ args, slot < width) → Scoped S width (.loop plan args)
  | collect {element : Kind} {args : List Slot} : (∀ slot ∈ args, slot < width) →
      Scoped S width (.collect element args)
  | spread {slot : Slot} {index length : Nat} : slot < width → index < length →
      Scoped S width (.spread slot index length)
  | dynamic {site : CallSite} {args : List Slot} : S.site site →
      Passes width args site.signature.arity → Scoped S width (.dynamic site args)

/-- Bindings that run on a frame of the given width, each on the slots of the ones before as
well. -/
def BindingsScoped (S : Scope) : Nat → List Binding → Prop
  | _, [] => True
  | width, b :: rest => b.step.Scoped S width ∧ BindingsScoped S (width + 1) rest

/-- A program over the parameters of a signature. It has a result slot unless the result is `void`,
and then the slot is one of its own. -/
structure Program.Scoped (S : Scope) (s : Signature) (p : Program) : Prop where
  arity_eq : p.arity = s.arity
  bindings : BindingsScoped S s.arity p.bindings
  result_isNone : p.result.isNone = s.ret.isVoid
  result_inside : ∀ slot, p.result = some slot → slot < s.arity + p.bindings.length

/-- A blueprint whose program is scoped over its signature. -/
structure Blueprint.Scoped (S : Scope) (b : Blueprint) : Prop where
  wellFormed : b.signature.WellFormed
  program : b.program.Scoped S b.signature

/-- A handle whose program is scoped over its signature. One that collects ends with an array. -/
structure Handle.Scoped (S : Scope) (h : Handle) : Prop where
  blueprint : Blueprint.Scoped S ⟨h.signature, h.program⟩
  trailing : h.variableArity = true →
    ∃ element, h.signature.params.getLast? = some (.arrayOf element)

/-- The handles of a scope are the ones that are scoped, and its call sites have signatures. -/
structure Scope.Complete (S : Scope) : Prop where
  handle_iff : ∀ h, S.handle h ↔ h.Scoped S
  site_wellFormed : ∀ c, S.site c → c.signature.WellFormed

variable {S S' : Scope}

/-! Values. -/

namespace Value

theorem inScope_array_iff {element : Kind} {items : List Value} :
    (array element items).InScope S ↔ ∀ v ∈ items, v.InScope S := by
  constructor
  · intro h
    cases h with
    | plain h => cases h
    | array items => exact items
  · exact .array

theorem inScope_handle_iff {h : Handle} : (handle h).InScope S ↔ S.handle h := by
  constructor
  · intro h
    cases h with
    | plain h => cases h
    | handle known => exact known
  · exact .handle

theorem inScope_callSite_iff {c : CallSite} : (callSite c).InScope S ↔ S.site c := by
  constructor
  · intro h
    cases h with
    | plain h => cases h
    | callSite known => exact known
  · exact .callSite

theorem InScope.mono {v : Value} (grows : S.Grows S') (h : v.InScope S) : v.InScope S' := by
  induction h with
  | plain h => exact .plain h
  | object o => exact .object o
  | throwable t => exact .throwable t
  | array _ ih => exact .array ih
  | signature wf => exact .signature wf
  | handle known => exact .handle (grows.handle _ known)
  | callSite known => exact .callSite (grows.site _ known)

/-- A conversion yields the value itself or a plain one. -/
theorem inScope_of_convert {v w : Value} {source target : Kind} (hv : v.InScope S)
    (h : v.convert source target = .ok w) : w.InScope S := by
  have plain : ∀ {v w : Value} {q : Prim}, v.widen q = .ok w → w.InScope S := by
    intro v w q h
    cases hv : v.prim? with
    | none =>
      simp only [widen, hv] at h
      cases h
    | some p => exact .plain (isPlain_of_prim? (prim?_of_widen hv h))
  unfold convert at h
  split at h
  · cases h
    exact hv
  · split at h
    · cases h
      exact .plain rfl
    · cases h
      exact .plain (isPlain_zero _)
    · exact plain h
    · split at h
      · exact plain h
      · cases h
    · exact .plain (isPlain_of_prim? (prim?_of_unbox h))
    · rw [(checkCast_eq_ok_iff.1 h).1]
      exact hv

theorem inScope_of_coerce {v w : Value} {k : Kind} (hv : v.InScope S) (h : v.coerce k = .ok w) :
    w.InScope S := by
  unfold coerce at h
  split at h
  · cases h
  · exact .plain (isPlain_of_prim? (prim?_of_unbox h))
  · split at h
    · next p hp =>
      split at h
      · exact .plain (isPlain_of_prim? (prim?_of_widen hp h))
      · cases h
    · rw [(checkCast_eq_ok_iff.1 h).1]
      exact hv

end Value

/-! Slots. -/

namespace Passes

variable {width count : Nat} {args : List Slot}

theorem append {more : List Slot} {others : Nat} (h : Passes width args count)
    (h' : Passes width more others) : Passes width (args ++ more) (count + others) where
  inside := List.forall_mem_append.2 ⟨h.inside, h'.inside⟩
  length_eq := by rw [List.length_append, h.length_eq, h'.length_eq]

/-- A wider frame has the slots of the frame. -/
theorem weaken {wider : Nat} (le : width ≤ wider) (h : Passes width args count) :
    Passes wider args count where
  inside slot mem := Nat.lt_of_lt_of_le (h.inside slot mem) le
  length_eq := h.length_eq

theorem slots {start stop : Nat} (inside : stop ≤ width) :
    Passes width (Program.slots start stop) (stop - start) where
  inside slot mem := by
    have between := List.mem_range'_1.1 mem
    exact Nat.lt_of_lt_of_le between.2 (by omega)
  length_eq := List.length_range'

theorem replicate {slot : Slot} (inside : slot < width) (count : Nat) :
    Passes width (List.replicate count slot) count where
  inside other mem := by rwa [(List.mem_replicate.1 mem).2]
  length_eq := List.length_replicate

theorem single {slot : Slot} (inside : slot < width) : Passes width [slot] 1 :=
  replicate inside 1

/-- All parameters of a signature, for a step over all of them. -/
theorem all (s : Signature) : Passes s.arity (Program.slots 0 s.arity) s.arity :=
  slots (Nat.le_refl _)

end Passes

/-! More in scope never hurts. -/

namespace Scope.Grows

theorem trans {S'' : Scope} (first : S.Grows S') (second : S'.Grows S'') : S.Grows S'' where
  handle h known := second.handle h (first.handle h known)
  site c known := second.site c (first.site c known)
  registry i known := second.registry i (first.registry i known)
  cache i known := second.cache i (first.cache i known)
  counter i known := second.counter i (first.counter i known)
  point l p s known := second.point l p s (first.point l p s known)

end Scope.Grows

theorem Action.Scoped.mono {count : Nat} {a : Action} (grows : S.Grows S')
    (h : a.Scoped S count) : a.Scoped S' count := by
  cases a with
  | intrinsic f =>
    refine ⟨h.1, fun name implementation instantiated eq => ?_⟩
    obtain ⟨known, wf⟩ := h.2 name implementation instantiated eq
    exact ⟨grows.handle _ known, wf⟩
  | host | virtual | getField | setField | construct => trivial

theorem LoopClause.Scoped.mono {carried count : Nat} {c : LoopClause} (grows : S.Grows S')
    (h : c.Scoped S carried count) : c.Scoped S' carried count :=
  { h with known := fun f mem => grows.handle f (h.known f mem) }

theorem LoopPlan.Scoped.mono {count : Nat} {plan : LoopPlan} (grows : S.Grows S')
    (h : plan.Scoped S count) : plan.Scoped S' count :=
  { h with clauses := fun c mem => (h.clauses c mem).mono grows }

theorem Step.Scoped.mono {width : Nat} {step : Step} (grows : S.Grows S')
    (h : step.Scoped S width) : step.Scoped S' width := by
  cases h with
  | const inScope => exact .const (inScope.mono grows)
  | convert inside => exact .convert inside
  | leaf action inside => exact .leaf (action.mono grows) inside
  | call target passes => exact .call (grows.handle _ target) passes
  | branch test target fallback passes same leads =>
    exact .branch (grows.handle _ test) (grows.handle _ target) (grows.handle _ fallback) passes
      same leads
  | catching target handler passes some leads =>
    exact .catching (grows.handle _ target) (grows.handle _ handler) passes some leads
  | finishing target cleanup passes ahead leads =>
    exact .finishing (grows.handle _ target) (grows.handle _ cleanup) passes ahead leads
  | loop plan inside => exact .loop (plan.mono grows) inside
  | collect inside => exact .collect inside
  | spread inside index => exact .spread inside index
  | dynamic site passes => exact .dynamic (grows.site _ site) passes

theorem BindingsScoped.mono {width : Nat} {bindings : List Binding} (grows : S.Grows S')
    (h : BindingsScoped S width bindings) : BindingsScoped S' width bindings := by
  induction bindings generalizing width with
  | nil => trivial
  | cons b rest ih => exact ⟨h.1.mono grows, ih h.2⟩

theorem Program.Scoped.mono {s : Signature} {p : Program} (grows : S.Grows S')
    (h : p.Scoped S s) : p.Scoped S' s :=
  { h with bindings := h.bindings.mono grows }

theorem Handle.Scoped.mono {h : Handle} (grows : S.Grows S') (fits : h.Scoped S) :
    h.Scoped S' :=
  ⟨⟨fits.blueprint.wellFormed, fits.blueprint.program.mono grows⟩, fits.trailing⟩

/-! Laid-out programs. -/

theorem bindingsScoped_append {width : Nat} {xs ys : List Binding} :
    BindingsScoped S width (xs ++ ys) ↔
      BindingsScoped S width xs ∧ BindingsScoped S (width + xs.length) ys := by
  induction xs generalizing width with
  | nil => simp [BindingsScoped]
  | cons b rest ih =>
    simp only [List.cons_append, BindingsScoped, ih, and_assoc, List.length_cons]
    rw [show width + 1 + rest.length = width + (rest.length + 1) by omega]

/-- What the bindings of a program are scoped over, one by one. -/
theorem bindingsScoped_iff {width : Nat} {bindings : List Binding} :
    BindingsScoped S width bindings ↔
      ∀ (i : Nat) (b : Binding), bindings[i]? = some b → b.step.Scoped S (width + i) := by
  induction bindings generalizing width with
  | nil => simp [BindingsScoped]
  | cons b rest ih =>
    simp only [BindingsScoped, ih]
    constructor
    · rintro ⟨here, others⟩ i c found
      cases i with
      | zero =>
        cases found
        exact here
      | succ j =>
        rw [show width + (j + 1) = width + 1 + j by omega]
        exact others j c found
    · intro all
      refine ⟨all 0 b rfl, fun i c found => ?_⟩
      rw [show width + 1 + i = width + (i + 1) by omega]
      exact all (i + 1) c found

/-- Steps that may stand on any slot of any frame. -/
def ChainScoped (S : Scope) (steps : List (Slot → Binding)) : Prop :=
  ∀ f ∈ steps, ∀ width slot : Nat, slot < width → (f slot).step.Scoped S width

theorem chain_scoped {width slot : Nat} {steps : List (Slot → Binding)}
    (h : ChainScoped S steps) (inside : slot < width) :
    BindingsScoped S width (Program.chain width slot steps).1 ∧
      (Program.chain width slot steps).2 < width + (Program.chain width slot steps).1.length := by
  induction steps generalizing width slot with
  | nil => exact ⟨trivial, by simpa [Program.chain] using inside⟩
  | cons f rest ih =>
    obtain ⟨fits, last⟩ := ih (fun g mem => h g (List.mem_cons_of_mem f mem))
      (Nat.lt_add_one width)
    refine ⟨⟨h f List.mem_cons_self width slot inside, fits⟩, Nat.lt_of_lt_of_eq last ?_⟩
    simp only [Program.chain, List.length_cons]
    omega

/-- Chains that are laid out one after the other pass one value each. -/
theorem layout_scoped (width : Nat) (chains : List (Slot × List (Slot → Binding)))
    (h : ∀ c ∈ chains, c.1 < width ∧ ChainScoped S c.2) :
    BindingsScoped S width (Program.layout width chains).1 ∧
      Passes (width + (Program.layout width chains).1.length) (Program.layout width chains).2
        chains.length := by
  induction chains generalizing width with
  | nil => exact ⟨trivial, List.forall_mem_nil _, rfl⟩
  | cons c rest ih =>
    obtain ⟨slot, steps⟩ := c
    obtain ⟨inside, fits⟩ := h _ List.mem_cons_self
    dsimp only at inside fits
    obtain ⟨first, last⟩ := chain_scoped fits inside
    have wider : ∀ c ∈ rest, c.1 < width + (Program.chain width slot steps).1.length ∧
        ChainScoped S c.2 := fun c mem => by
      obtain ⟨inside, fits⟩ := h c (List.mem_cons_of_mem _ mem)
      exact ⟨Nat.lt_add_right _ inside, fits⟩
    obtain ⟨others, passes⟩ := ih _ wider
    dsimp only [Program.layout]
    rw [List.length_append, List.length_cons]
    refine ⟨bindingsScoped_append.2 ⟨first, others⟩,
      List.forall_mem_cons.2 ⟨Nat.lt_of_lt_of_le last (by omega), ?_⟩, ?_⟩
    · rw [← Nat.add_assoc]
      exact passes.inside
    · rw [List.length_cons, passes.length_eq]

/-- Bindings of constants. -/
theorem constants_scoped (width : Nat) (kinds : List Kind) {bound : List Value}
    (inScope : ∀ v ∈ bound, v.InScope S) :
    BindingsScoped S width ((kinds.zip bound).map fun (kind, v) => ⟨kind, .const v⟩) := by
  induction kinds generalizing width bound with
  | nil => trivial
  | cons k ks ih =>
    cases bound with
    | nil => trivial
    | cons v vs =>
      rw [List.forall_mem_cons] at inScope
      exact ⟨.const inScope.1, ih _ inScope.2⟩

theorem conversion_scoped (source target : Kind) :
    ChainScoped S (Program.conversion source target) := by
  unfold Program.conversion
  split
  · exact List.forall_mem_nil _
  · exact List.forall_mem_singleton.2 fun _ _ inside => .convert inside

theorem resultSlot_isNone (ret : Kind) (slot : Slot) :
    (Program.resultSlot ret slot).isNone = ret.isVoid := by
  unfold Program.resultSlot
  cases ret.isVoid <;> rfl

theorem eq_of_resultSlot {ret : Kind} {slot last : Slot}
    (h : Program.resultSlot ret last = some slot) : slot = last := by
  unfold Program.resultSlot at h
  split at h
  · cases h
  · exact (Option.some.inj h).symm

namespace Program

/-- A program that ends in a call after other bindings. -/
theorem calling_scoped {s : Signature} {arity : Nat} {before : List Binding} {target : Handle}
    {args : List Slot} (harity : arity = s.arity) (known : S.handle target)
    (ret : target.signature.ret.isVoid = s.ret.isVoid) (fits : BindingsScoped S arity before)
    (passes : Passes (arity + before.length) args target.arity) :
    (calling arity before target args).Scoped S s := by
  subst harity
  refine ⟨rfl, bindingsScoped_append.2 ⟨fits, .call known passes, trivial⟩,
    (resultSlot_isNone _ _).trans ret, fun slot found => ?_⟩
  rw [eq_of_resultSlot found]
  simp [calling]

/-- A program that passes the result of a call through a chain. -/
theorem chained_scoped {s : Signature} {before : List Binding} {target : Handle}
    {args : List Slot} {steps : List (Slot → Binding)} (known : S.handle target)
    (fits : BindingsScoped S s.arity before)
    (passes : Passes (s.arity + before.length) args target.arity)
    (chain : ChainScoped S steps) :
    Program.Scoped S s ⟨s.arity, before ++ ⟨target.signature.ret, .call target args⟩ ::
        (Program.chain (s.arity + before.length + 1) (s.arity + before.length) steps).1,
      resultSlot s.ret
        (Program.chain (s.arity + before.length + 1) (s.arity + before.length) steps).2⟩ := by
  obtain ⟨after, last⟩ := chain_scoped chain (Nat.lt_add_one (s.arity + before.length))
  refine ⟨rfl, bindingsScoped_append.2 ⟨fits, .call known passes, after⟩,
    resultSlot_isNone _ _, fun slot found => ?_⟩
  rw [eq_of_resultSlot found, List.length_append, List.length_cons]
  exact Nat.lt_of_lt_of_eq last (by omega)

/-- A program of one step over all parameters. -/
theorem single_scoped {s : Signature} (step : List Slot → Step)
    (fits : (step (slots 0 s.arity)).Scoped S s.arity) : (single s step).Scoped S s where
  arity_eq := rfl
  bindings := ⟨fits, trivial⟩
  result_isNone := resultSlot_isNone _ _
  result_inside slot found := by
    rw [eq_of_resultSlot found]
    simp [single]

end Program

/-! Worlds. -/

/-- How a call site was made: its kind, its signature and its first target. -/
structure SiteOrigin where
  kind : SiteKind
  signature : Signature
  target : Option Handle

/-- What there is, apart from handles: the call sites by their numbers, and how many registries,
caches and counters; and the signatures at which a point of a linker may be linked. -/
structure World where
  sites : List SiteOrigin
  registries : Nat
  caches : Nat
  counters : Nat
  point : Nat → UInt64 → Signature → Prop

namespace World

variable {σ τ : World}

/-- A call site that was made with its kind and its signature. -/
def Site (σ : World) (c : CallSite) : Prop :=
  c.signature.WellFormed ∧
    ∃ o, σ.sites[c.id]? = some o ∧ o.kind = c.kind ∧ o.signature = c.signature

/-- The scope with the given handles. -/
def scopeOver (σ : World) (handle : Handle → Prop) : Scope where
  handle := handle
  site := σ.Site
  registry i := i < σ.registries
  cache i := i < σ.caches
  counter i := i < σ.counters
  point := σ.point

/-- A handle that is scoped, with all handles that it calls, and all that these call, and so on. -/
def Scopes (σ : World) (h : Handle) : Prop :=
  ∃ handle : Handle → Prop, handle h ∧ ∀ g, handle g → g.Scoped (σ.scopeOver handle)

/-- The scope with all handles that are scoped. -/
def scope (σ : World) : Scope := σ.scopeOver σ.Scopes

/-- Nothing disappears, and no point may be linked at another signature. -/
structure Grows (σ τ : World) : Prop where
  sites : σ.sites <+: τ.sites
  registries : σ.registries ≤ τ.registries
  caches : σ.caches ≤ τ.caches
  counters : σ.counters ≤ τ.counters
  point : τ.point = σ.point

theorem Grows.refl (σ : World) : σ.Grows σ :=
  ⟨List.prefix_rfl, Nat.le_refl _, Nat.le_refl _, Nat.le_refl _, rfl⟩

theorem Grows.trans {ρ : World} (first : σ.Grows τ) (second : τ.Grows ρ) : σ.Grows ρ where
  sites := first.sites.trans second.sites
  registries := Nat.le_trans first.registries second.registries
  caches := Nat.le_trans first.caches second.caches
  counters := Nat.le_trans first.counters second.counters
  point := second.point.trans first.point

theorem Grows.origin (grows : σ.Grows τ) {i : Nat} {o : SiteOrigin}
    (found : σ.sites[i]? = some o) : τ.sites[i]? = some o := by
  obtain ⟨more, eq⟩ := grows.sites
  rw [← eq, List.getElem?_append_left (List.getElem?_eq_some_iff.1 found).1, found]

theorem Grows.site (grows : σ.Grows τ) {c : CallSite} (site : σ.Site c) : τ.Site c := by
  obtain ⟨wf, o, found, same⟩ := site
  exact ⟨wf, o, grows.origin found, same⟩

theorem Grows.scopeOver (grows : σ.Grows τ) {handle handle' : Handle → Prop}
    (more : ∀ h, handle h → handle' h) :
    (σ.scopeOver handle).Grows (τ.scopeOver handle') where
  handle := more
  site _ site := grows.site site
  registry _ inside := Nat.lt_of_lt_of_le inside grows.registries
  cache _ inside := Nat.lt_of_lt_of_le inside grows.caches
  counter _ inside := Nat.lt_of_lt_of_le inside grows.counters
  point l p s known := by
    show τ.point l p s
    rw [grows.point]
    exact known

theorem Grows.scope (grows : σ.Grows τ) : σ.scope.Grows τ.scope := by
  refine grows.scopeOver fun h => ?_
  rintro ⟨handle, here, fits⟩
  exact ⟨handle, here, fun g known => (fits g known).mono (grows.scopeOver fun _ h => h)⟩

/-- Scoped handles call nothing but scoped handles, and every one that does is scoped. -/
theorem scope_complete (σ : World) : σ.scope.Complete := by
  have fits : ∀ h, σ.Scopes h → h.Scoped σ.scope := by
    rintro h ⟨handle, here, fits⟩
    exact (fits h here).mono ((Grows.refl σ).scopeOver fun g known => ⟨handle, known, fits⟩)
  refine ⟨fun h => ⟨fits h, fun here => ?_⟩, fun _ site => site.1⟩
  have more : σ.scope.Grows (σ.scopeOver fun g => g = h ∨ σ.Scopes g) :=
    (Grows.refl σ).scopeOver fun _ => .inr
  refine ⟨fun g => g = h ∨ σ.Scopes g, .inl rfl, fun g known => ?_⟩
  rcases known with rfl | known
  · exact here.mono more
  · exact (fits g known).mono more

end World
end TypedHandles
