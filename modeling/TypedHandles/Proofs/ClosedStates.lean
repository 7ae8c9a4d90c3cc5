import TypedHandles.Proofs.Ownership
import TypedHandles.Proofs.Recording

/-!
Closed states: whatever a state holds refers to cells that were made, so nothing that exists leads
to a cell that is still to be made (`State.Closed.reaches`).

`W` says whether there may be code that writes into cells at all. Where there may not, no handle of
a closed state sets a field or suppresses a throwable, whatever it calls.
-/
namespace TypedHandles

open Relation (ReflTransGen TransGen)

variable {W : Prop} {s t u : State} {n m cell : Node} {added : List Node}

/-! What exists. -/

/-- Whether an action writes into what was there before. -/
def Action.writes : Action → Bool
  | .setField .. => true
  | _ => false

/-- Whether a step writes into what was there before: a cleanup that fails gets to suppress a
throwable. -/
def Step.writes : Step → Bool
  | .leaf action _ => action.writes
  | .finishing .. => true
  | _ => false

/-- A cell that was made, or a piece of data that does not write unless it may. -/
def Node.Exists (W : Prop) (s : State) : Node → Prop
  | .object id => id < s.objects.size
  | .throwable id => id < s.suppressed.size
  | .site id => id < s.sites.size
  | .program p => ∀ b ∈ p.bindings, b.step.writes = true → W
  | .handle _ | .array _ => True

/-- Whatever is a part exists, at any depth. -/
def Node.Within (W : Prop) (s : State) (n : Node) : Prop :=
  ∀ m, ReflTransGen (fun a b => b ∈ a.parts) n m → m.Exists W s

/-- No fewer cells. -/
structure State.Grows (s t : State) : Prop where
  objects : s.objects.size ≤ t.objects.size
  throwables : s.suppressed.size ≤ t.suppressed.size
  sites : s.sites.size ≤ t.sites.size

theorem State.Grows.refl (s : State) : s.Grows s := ⟨Nat.le_refl _, Nat.le_refl _, Nat.le_refl _⟩

theorem State.Grows.trans (first : s.Grows t) (second : t.Grows u) : s.Grows u :=
  ⟨Nat.le_trans first.objects second.objects, Nat.le_trans first.throwables second.throwables,
    Nat.le_trans first.sites second.sites⟩

theorem Node.Exists.mono (grows : s.Grows t) (h : n.Exists W s) : n.Exists W t := by
  cases n with
  | object => exact Nat.lt_of_lt_of_le h grows.objects
  | throwable => exact Nat.lt_of_lt_of_le h grows.throwables
  | site => exact Nat.lt_of_lt_of_le h grows.sites
  | program => exact h
  | handle | array => trivial

theorem Node.Within.mono (grows : s.Grows t) (h : n.Within W s) : n.Within W t :=
  fun m part => (h m part).mono grows

theorem Node.Within.exists (h : n.Within W s) : n.Exists W s := h n .refl

theorem Node.within_iff : n.Within W s ↔ n.Exists W s ∧ ∀ m ∈ n.parts, m.Within W s := by
  constructor
  · exact fun h => ⟨h.exists, fun m part k deeper => h k (.head part deeper)⟩
  · rintro ⟨here, parts⟩ m part
    obtain rfl | ⟨k, first, rest⟩ := ReflTransGen.cases_head part
    · exact here
    · exact parts k first m rest

/-- A value that refers to what exists. -/
def Value.Within (W : Prop) (s : State) (v : Value) : Prop := ∀ n ∈ v.node?, n.Within W s

/-- A handle that refers to what exists. -/
def Handle.Within (W : Prop) (s : State) (h : Handle) : Prop := (Node.handle h).Within W s

/-- An action that refers to what exists. -/
structure Action.Within (W : Prop) (s : State) (action : Action) : Prop where
  writes : action.writes = true → W
  nodes : ∀ n ∈ action.nodes, n.Within W s

/-- A step that refers to what exists. -/
structure Step.Within (W : Prop) (s : State) (step : Step) : Prop where
  writes : step.writes = true → W
  nodes : ∀ n ∈ step.nodes, n.Within W s

/-- A program that refers to what exists. -/
def Program.Within (W : Prop) (s : State) (p : Program) : Prop :=
  ∀ b ∈ p.bindings, b.step.Within W s

theorem Value.Within.mono {v : Value} (grows : s.Grows t) (h : v.Within W s) : v.Within W t :=
  fun n found => (h n found).mono grows

theorem Handle.Within.mono {h : Handle} (grows : s.Grows t) (within : h.Within W s) :
    h.Within W t :=
  Node.Within.mono grows within

theorem Action.Within.mono {action : Action} (grows : s.Grows t) (h : action.Within W s) :
    action.Within W t :=
  ⟨h.writes, fun n mem => (h.nodes n mem).mono grows⟩

theorem Step.Within.mono {step : Step} (grows : s.Grows t) (h : step.Within W s) :
    step.Within W t :=
  ⟨h.writes, fun n mem => (h.nodes n mem).mono grows⟩

theorem Program.Within.mono {p : Program} (grows : s.Grows t) (h : p.Within W s) : p.Within W t :=
  fun b mem => (h b mem).mono grows

theorem Handle.within_iff {h : Handle} : h.Within W s ↔ h.program.Within W s := by
  rw [Handle.Within, Node.within_iff]
  simp only [Node.Exists, Node.parts, List.forall_mem_singleton, true_and]
  rw [Node.within_iff]
  simp only [Node.Exists, Node.parts, List.mem_flatMap]
  constructor
  · rintro ⟨writes, nodes⟩ b mem
    exact ⟨writes b mem, fun n part => nodes n ⟨b, mem, part⟩⟩
  · intro h
    exact ⟨fun b mem => (h b mem).writes, fun n ⟨b, mem, part⟩ => (h b mem).nodes n part⟩

namespace Node

@[simp] theorem within_object_iff {id : Nat} : (object id).Within W s ↔ id < s.objects.size := by
  rw [within_iff]
  simp [Exists, parts]

@[simp] theorem within_throwable_iff {id : Nat} :
    (throwable id).Within W s ↔ id < s.suppressed.size := by
  rw [within_iff]
  simp [Exists, parts]

@[simp] theorem within_site_iff {id : Nat} : (site id).Within W s ↔ id < s.sites.size := by
  rw [within_iff]
  simp [Exists, parts]

@[simp] theorem within_array_iff {items : List Value} :
    (array items).Within W s ↔ ∀ v ∈ items, v.Within W s := by
  rw [within_iff]
  simp only [Exists, parts, List.mem_filterMap, true_and]
  exact ⟨fun h v mem n found => h n ⟨v, mem, found⟩, fun h n ⟨v, mem, found⟩ => h v mem n found⟩

end Node

namespace Value

theorem within_of_isPlain {v : Value} (plain : v.isPlain = true) : v.Within W s := by
  intro n found
  cases v <;> simp_all [isPlain, node?]

theorem within_zero (k : Kind) : (zero k).Within W s := within_of_isPlain (isPlain_zero k)

@[simp] theorem within_object_iff {o : ObjectRef} :
    (object o).Within W s ↔ o.id < s.objects.size := by
  simp [Within, node?]

@[simp] theorem within_throwable_iff {t : Throwable} :
    (throwable t).Within W s ↔ t.id < s.suppressed.size := by
  simp [Within, node?]

@[simp] theorem within_callSite_iff {c : CallSite} :
    (callSite c).Within W s ↔ c.id < s.sites.size := by
  simp [Within, node?]

@[simp] theorem within_handle_iff {h : Handle} : (handle h).Within W s ↔ h.Within W s := by
  simp [Within, node?, Handle.Within]

@[simp] theorem within_array_iff {element : Kind} {items : List Value} :
    (array element items).Within W s ↔ ∀ v ∈ items, v.Within W s := by
  simp [Within, node?]

theorem isPlain_of_widen {v w : Value} {q : Prim} (h : v.widen q = .ok w) : w.isPlain = true := by
  cases hv : v.prim? with
  | none =>
    simp only [widen, hv] at h
    cases h
  | some p => exact isPlain_of_prim? (prim?_of_widen hv h)

/-- A conversion yields the value itself or a plain one. -/
theorem within_of_convert {v w : Value} {source target : Kind} (within : v.Within W s)
    (h : v.convert source target = .ok w) : w.Within W s := by
  unfold convert at h
  split at h
  · cases h
    exact within
  · split at h
    · cases h
      exact within_of_isPlain rfl
    · cases h
      exact within_zero _
    · exact within_of_isPlain (isPlain_of_widen h)
    · split at h
      · exact within_of_isPlain (isPlain_of_widen h)
      · cases h
    · exact within_of_isPlain (isPlain_of_prim? (prim?_of_unbox h))
    · rw [(checkCast_eq_ok_iff.1 h).1]
      exact within

theorem within_of_coerce {v w : Value} {k : Kind} (within : v.Within W s)
    (h : v.coerce k = .ok w) : w.Within W s := by
  unfold coerce at h
  split at h
  · cases h
  · exact within_of_isPlain (isPlain_of_prim? (prim?_of_unbox h))
  · split at h
    · split at h
      · exact within_of_isPlain (isPlain_of_widen h)
      · cases h
    · rw [(checkCast_eq_ok_iff.1 h).1]
      exact within

end Value

/-! Steps, by what they refer to. -/

namespace Step

theorem within_iff {step : Step} :
    step.Within W s ↔ (step.writes = true → W) ∧ ∀ n ∈ step.nodes, n.Within W s :=
  ⟨fun h => ⟨h.writes, h.nodes⟩, fun h => ⟨h.1, h.2⟩⟩

variable {test target fallback handler cleanup : Handle} {args : List Slot}

@[simp] theorem within_const_iff {v : Value} : (const v).Within W s ↔ v.Within W s := by
  simp [within_iff, writes, nodes, Value.Within]

@[simp] theorem within_convert {slot : Slot} {source wanted : Kind} :
    (convert slot source wanted).Within W s :=
  ⟨nofun, nofun⟩

@[simp] theorem within_leaf_iff {action : Action} :
    (leaf action args).Within W s ↔ action.Within W s :=
  ⟨fun h => ⟨h.writes, h.nodes⟩, fun h => ⟨h.writes, h.nodes⟩⟩

@[simp] theorem within_call_iff : (call target args).Within W s ↔ target.Within W s := by
  simp [within_iff, writes, nodes, Handle.Within]

@[simp] theorem within_branch_iff : (branch test target fallback args).Within W s ↔
    test.Within W s ∧ target.Within W s ∧ fallback.Within W s := by
  simp [within_iff, writes, nodes, Handle.Within]

@[simp] theorem within_catching_iff {exception : RefType} :
    (catching target exception handler args).Within W s ↔
      target.Within W s ∧ handler.Within W s := by
  simp [within_iff, writes, nodes, Handle.Within]

@[simp] theorem within_finishing_iff : (finishing target cleanup args).Within W s ↔
    W ∧ target.Within W s ∧ cleanup.Within W s := by
  simp [within_iff, writes, nodes, Handle.Within]

@[simp] theorem within_loop_iff {plan : LoopPlan} : (loop plan args).Within W s ↔
    ∀ c ∈ plan.clauses, ∀ f ∈ c.functions, f.Within W s := by
  simp only [within_iff, writes, nodes, List.mem_map, List.mem_flatMap]
  constructor
  · exact fun h c memc f memf => h.2 _ ⟨f, ⟨c, memc, memf⟩, rfl⟩
  · intro h
    refine ⟨fun writes => absurd writes Bool.false_ne_true, ?_⟩
    rintro _ ⟨f, ⟨c, memc, memf⟩, rfl⟩
    exact h c memc f memf

@[simp] theorem within_collect {element : Kind} : (collect element args).Within W s :=
  ⟨nofun, nofun⟩

@[simp] theorem within_spread {slot : Slot} {index length : Nat} :
    (spread slot index length).Within W s :=
  ⟨nofun, nofun⟩

@[simp] theorem within_dynamic_iff {site : CallSite} :
    (dynamic site args).Within W s ↔ site.id < s.sites.size := by
  simp [within_iff, writes, nodes]

end Step

/-! Closed states. -/

/-- The adapters that a table remembers refer to what exists. -/
def HandleTable.Within (W : Prop) (s : State) (t : HandleTable) : Prop :=
  ∀ (i : Nat) (a : Handle), t.adapters[i]? = some (some a) → a.Within W s

/-- A cache of handles that refer to what exists. -/
structure SharedHandles.Within (W : Prop) (s : State) (c : SharedHandles) : Prop where
  constants : ∀ e ∈ c.constants, e.2.Within W s
  identities : ∀ e ∈ c.identities, e.2.Within W s

/-- Whatever a state holds refers to what exists. -/
structure State.Closed (W : Prop) (s : State) : Prop where
  held : ∀ n, ∀ m ∈ s.held n, m.Within W s
  handles : s.handles.Within W s
  caches : ∀ (i : Nat) (c : SharedHandles), s.caches[i]? = some c → c.Within W s
  links : ∀ (i : Nat) (table : LinkTable), s.linkers[i]? = some table →
    ∀ e ∈ table, e.2.id < s.sites.size

theorem HandleTable.Within.mono {table : HandleTable} (grows : s.Grows t)
    (h : table.Within W s) : table.Within W t :=
  fun i a found => (h i a found).mono grows

theorem SharedHandles.Within.mono {c : SharedHandles} (grows : s.Grows t) (h : c.Within W s) :
    c.Within W t :=
  ⟨fun e mem => (h.constants e mem).mono grows, fun e mem => (h.identities e mem).mono grows⟩

namespace State

theorem empty_closed : State.empty.Closed W where
  held n := by cases n <;> exact nofun
  handles := nofun
  caches := nofun
  links := nofun

/-- What exists leads to what exists. -/
theorem Closed.reaches (closed : s.Closed W) (within : n.Within W s) (way : s.Reaches n m) :
    m.Within W s := by
  induction way with
  | refl => exact within
  | tail _ step ih =>
    obtain part | held := step
    · exact (Node.within_iff.1 ih).2 _ part
    · exact closed.held _ _ held

/-- What is put into a cell may refer to what exists. -/
theorem Closed.rewritten (closed : s.Closed W) (rewrites : s.Rewrites cell added t)
    (grows : s.Grows t) (within : ∀ m ∈ added, m.Within W s) (handles : t.handles = s.handles)
    (caches : t.caches = s.caches) (linkers : t.linkers = s.linkers) : t.Closed W where
  held n m mem := by
    by_cases here : n = cell
    · subst here
      obtain old | new := rewrites.kept m mem
      · exact (closed.held n m old).mono grows
      · exact (within m new).mono grows
    · rw [rewrites.others n here] at mem
      exact (closed.held n m mem).mono grows
  handles := handles ▸ closed.handles.mono grows
  caches i c found := (closed.caches i c (caches ▸ found)).mono grows
  links i table found e mem :=
    Nat.lt_of_lt_of_le (closed.links i table (linkers ▸ found) e mem) grows.sites

end State
end TypedHandles
