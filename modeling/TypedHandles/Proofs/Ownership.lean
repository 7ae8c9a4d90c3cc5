import Mathlib.Logic.Relation
import TypedHandles.Proofs.Typing
import TypedHandles.Machine.State

/-!
The graph of ownership. Whatever a value, a step or a cell of the state refers to is owned by it and
lives as long as it does. The adapter that a table of handles remembers is not owned: the table lets
go of it.

Data is a finite tree, so a circle runs through a cell: the fields of an object, what a throwable
has suppressed, or the target of a call site. What is put into a cell closes a circle exactly if it
leads back to the cell (`State.Rewrites.acyclic_iff`).
-/
namespace TypedHandles

open Relation (ReflTransGen TransGen)

/-! Circles in a relation that is changed at one place. -/

section

variable {α : Type} {R R' : α → α → Prop} {c x y : α}

/-- A way through the changed relation is a way through the old one, or it comes to the place of the
change by one. -/
theorem reflTransGen_or_through (same : ∀ x y, x ≠ c → R' x y → R x y) (way : ReflTransGen R' x y) :
    ReflTransGen R x y ∨ ReflTransGen R x c ∧ ReflTransGen R' c y := by
  induction way using ReflTransGen.head_induction_on with
  | refl => exact .inl .refl
  | @head x z step rest ih =>
    by_cases here : x = c
    · subst here
      exact .inr ⟨.refl, .head step rest⟩
    · have old := same x z here step
      exact ih.imp (.head old) fun ⟨leads, leaves⟩ => ⟨.head old leads, leaves⟩

theorem transGen_or_through (same : ∀ x y, x ≠ c → R' x y → R x y) (way : TransGen R' x y) :
    TransGen R x y ∨ ReflTransGen R x c ∧ TransGen R' c y := by
  induction way using TransGen.head_induction_on with
  | @single x step =>
    by_cases here : x = c
    · subst here
      exact .inr ⟨.refl, .single step⟩
    · exact .inl (.single (same x y here step))
  | @head x z step rest ih =>
    by_cases here : x = c
    · subst here
      exact .inr ⟨.refl, .head step rest⟩
    · have old := same x z here step
      exact ih.imp (.head old) fun ⟨leads, leaves⟩ => ⟨.head old leads, leaves⟩

/-- Where there was no circle, there is one after a change at one place exactly if a new way from
there comes back by the old ones. -/
theorem exists_circle_iff (same : ∀ x y, x ≠ c → (R' x y ↔ R x y))
    (acyclic : ∀ x, ¬ TransGen R x x) :
    (∃ x, TransGen R' x x) ↔ ∃ y, R' c y ∧ ReflTransGen R y c := by
  have forth : ∀ x y, x ≠ c → R' x y → R x y := fun x y other => (same x y other).1
  have back : ∀ x y, x ≠ c → R x y → R' x y := fun x y other => (same x y other).2
  constructor
  · rintro ⟨x, circle⟩
    obtain old | ⟨leads, leaves⟩ := transGen_or_through forth circle
    · exact absurd old (acyclic x)
    · obtain ⟨y, first, rest⟩ := TransGen.head'_iff.1 leaves
      obtain old | ⟨returns, -⟩ := reflTransGen_or_through forth rest
      · exact ⟨y, first, old.trans leads⟩
      · exact ⟨y, first, returns⟩
  · rintro ⟨y, first, returns⟩
    obtain new | ⟨new, -⟩ := reflTransGen_or_through back returns
    · exact ⟨c, .head' first new⟩
    · exact ⟨c, .head' first new⟩

end

/-! What refers to what. -/

/-- What owns or is owned: a cell of the state, by its number, or a piece of data. -/
inductive Node where
  | object (id : Nat)
  | throwable (id : Nat)
  | site (id : Nat)
  | handle (handle : Handle)
  | program (program : Program)
  | array (items : List Value)

/-- What a value refers to. -/
def Value.node? : Value → Option Node
  | .object o => some (.object o.id)
  | .throwable t => some (.throwable t.id)
  | .callSite c => some (.site c.id)
  | .handle h => some (.handle h)
  | .array _ items => some (.array items)
  | _ => none

/-- What an action refers to. -/
def Action.nodes : Action → List Node
  | .intrinsic (.lambda _ implementation _) => [.handle implementation]
  | _ => []

/-- What a step refers to. -/
def Step.nodes : Step → List Node
  | .const v => v.node?.toList
  | .leaf action _ => action.nodes
  | .call target _ => [.handle target]
  | .branch test target fallback _ => [.handle test, .handle target, .handle fallback]
  | .catching target _ handler _ => [.handle target, .handle handler]
  | .finishing target cleanup _ => [.handle target, .handle cleanup]
  | .loop plan _ => (plan.clauses.flatMap LoopClause.functions).map .handle
  | .dynamic site _ => [.site site.id]
  | .convert .. | .collect .. | .spread .. => []

/-- What a piece of data refers to, whatever the state is. -/
def Node.parts : Node → List Node
  | .handle h => [.program h.program]
  | .program p => p.bindings.flatMap (·.step.nodes)
  | .array items => items.filterMap Value.node?
  | .object _ | .throwable _ | .site _ => []

/-! Data is a finite tree. -/

theorem Value.sizeOf_node_le {v : Value} {n : Node} (h : v.node? = some n) :
    sizeOf n ≤ sizeOf v := by
  have object : ∀ o : ObjectRef, o.id ≤ sizeOf o := fun o => by cases o; simp +arith
  have throwable : ∀ t : Throwable, t.id ≤ sizeOf t := fun t => by cases t; simp +arith
  have site : ∀ c : CallSite, c.id ≤ sizeOf c := fun c => by cases c; simp +arith
  unfold node? at h
  split at h <;> cases h <;> simp +arith [object, throwable, site]

theorem LoopClause.sizeOf_function_lt {c : LoopClause} {f : Handle} (mem : f ∈ c.functions) :
    sizeOf f < sizeOf c := by
  cases c
  simp only [functions, bodyFunctions, List.mem_append, Option.mem_toList] at mem
  rcases mem with rfl | (rfl | rfl) | rfl <;> simp +arith

theorem Action.sizeOf_node_le {action : Action} {n : Node} (mem : n ∈ action.nodes) :
    sizeOf n ≤ sizeOf action := by
  unfold nodes at mem
  split at mem
  · obtain rfl := List.mem_singleton.1 mem
    simp +arith
  · cases mem

theorem Step.sizeOf_node_le {step : Step} {n : Node} (mem : n ∈ step.nodes) :
    sizeOf n ≤ sizeOf step := by
  cases step with
  | const v =>
    have size := Value.sizeOf_node_le (Option.mem_toList.1 mem)
    simp only [const.sizeOf_spec]
    omega
  | leaf action args =>
    have size := Action.sizeOf_node_le mem
    simp only [leaf.sizeOf_spec]
    omega
  | loop plan args =>
    obtain ⟨f, memf, rfl⟩ := List.mem_map.1 mem
    obtain ⟨c, memc, inside⟩ := List.mem_flatMap.1 memf
    have size := LoopClause.sizeOf_function_lt inside
    obtain ⟨clauses, slots, carried, result⟩ := plan
    have inner : sizeOf c < sizeOf clauses := List.sizeOf_lt_of_mem memc
    simp only [loop.sizeOf_spec, LoopPlan.mk.sizeOf_spec, Node.handle.sizeOf_spec]
    omega
  | call | branch | catching | finishing =>
    simp only [nodes, List.mem_cons, List.not_mem_nil, or_false] at mem
    rcases mem with rfl | rfl | rfl <;> simp +arith
  | dynamic site args =>
    obtain rfl := List.mem_singleton.1 mem
    cases site
    simp +arith
  | convert | collect | spread => cases mem

/-- What is referred to is smaller. -/
theorem Node.sizeOf_lt_of_mem_parts {n m : Node} (mem : m ∈ n.parts) : sizeOf m < sizeOf n := by
  cases n with
  | object | throwable | site => cases mem
  | handle h =>
    obtain rfl := List.mem_singleton.1 mem
    cases h
    simp +arith
  | program p =>
    obtain ⟨b, memb, mem⟩ := List.mem_flatMap.1 mem
    have size := Step.sizeOf_node_le mem
    have inner := List.sizeOf_lt_of_mem memb
    cases p
    cases b
    simp +arith at size inner ⊢
    omega
  | array items =>
    obtain ⟨v, memv, found⟩ := List.mem_filterMap.1 mem
    have size := Value.sizeOf_node_le found
    have inner := List.sizeOf_lt_of_mem memv
    simp +arith
    omega

namespace State

/-- What a cell holds now. -/
def held (s : State) : Node → List Node
  | .object id => ((s.objects[id]?).getD []).filterMap Value.node?
  | .throwable id => ((s.suppressed[id]?).getD []).map fun t => .throwable t.id
  | .site id => ((s.sites[id]?).bind (·.target)).toList.map .handle
  | .handle _ | .program _ | .array _ => []

/-- A strong reference. -/
def Owns (s : State) (n m : Node) : Prop := m ∈ n.parts ∨ m ∈ s.held n

/-- References lead from one to the other. -/
abbrev Reaches (s : State) : Node → Node → Prop := ReflTransGen s.Owns

/-- Nothing owns itself, directly or through others. -/
def Acyclic (s : State) : Prop := ∀ n, ¬ TransGen s.Owns n n

/-- A change of one cell, into which something is put. What the cell held before may go. -/
structure Rewrites (s : State) (cell : Node) (added : List Node) (t : State) : Prop where
  others : ∀ n, n ≠ cell → t.held n = s.held n
  put : ∀ m ∈ added, m ∈ t.held cell
  kept : ∀ m ∈ t.held cell, m ∈ s.held cell ∨ m ∈ added

variable {s t : State} {cell : Node} {added : List Node}

/-- Where no cell holds anything, references lead to what is smaller. -/
theorem empty_acyclic : State.empty.Acyclic := by
  have one : ∀ {n m : Node}, State.empty.Owns n m → sizeOf m < sizeOf n := by
    rintro n m (part | held)
    · exact Node.sizeOf_lt_of_mem_parts part
    · cases n <;> cases held
  have all : ∀ {n m : Node}, TransGen State.empty.Owns n m → sizeOf m < sizeOf n := by
    intro n m way
    induction way with
    | single step => exact one step
    | tail _ step ih => exact Nat.lt_trans (one step) ih
  exact fun n circle => Nat.lt_irrefl _ (all circle)

theorem acyclic_congr (same : t.held = s.held) : t.Acyclic ↔ s.Acyclic := by
  have owns : t.Owns = s.Owns := by
    funext n m
    rw [Owns, Owns, same]
  rw [Acyclic, Acyclic, owns]

/-- States that differ in one cell at most hold the same in the others. -/
theorem held_congr {n : Node} (objects : ∀ i, n = .object i → t.objects[i]? = s.objects[i]?)
    (throwables : ∀ i, n = .throwable i → t.suppressed[i]? = s.suppressed[i]?)
    (sites : ∀ i, n = .site i → t.sites[i]? = s.sites[i]?) : t.held n = s.held n := by
  cases n with
  | object i => simp only [held, objects i rfl]
  | throwable i => simp only [held, throwables i rfl]
  | site i => simp only [held, sites i rfl]
  | handle | program | array => rfl

/-- States with the same cells hold the same. -/
theorem held_eq (objects : t.objects = s.objects) (throwables : t.suppressed = s.suppressed)
    (sites : t.sites = s.sites) : t.held = s.held :=
  funext fun _ => held_congr (fun _ _ => by rw [objects]) (fun _ _ => by rw [throwables])
    fun _ _ => by rw [sites]

/-- What is put into a cell closes a circle exactly if it leads back to the cell. -/
theorem Rewrites.acyclic_iff (rewrites : s.Rewrites cell added t) (acyclic : s.Acyclic) :
    t.Acyclic ↔ ∀ m ∈ added, ¬ s.Reaches m cell := by
  have same : ∀ n m, n ≠ cell → (t.Owns n m ↔ s.Owns n m) := by
    intro n m other
    rw [Owns, Owns, rewrites.others n other]
  have circle := exists_circle_iff same acyclic
  rw [Acyclic, ← not_exists, circle, not_exists]
  constructor
  · exact fun none m mem returns => none m ⟨.inr (rewrites.put m mem), returns⟩
  · rintro none m ⟨owned, returns⟩
    have closed : s.Owns cell m → False := fun old => acyclic cell (.head' old returns)
    obtain part | held := owned
    · exact closed (.inl part)
    · obtain old | new := rewrites.kept m held
      · exact closed (.inr old)
      · exact none m new returns

/-! Cells that are made, and writes into the ones there are. -/

theorem rewrites_newObject (s : State) (fields : List Value) :
    s.Rewrites (.object s.objects.size) (fields.filterMap Value.node?)
      { s with objects := s.objects.push fields } where
  others n other := by
    refine held_congr (fun i eq => ?_) (fun _ _ => rfl) fun _ _ => rfl
    have older : i ≠ s.objects.size := fun same => other (same ▸ eq)
    rw [Array.getElem?_push, if_neg older]
  put m mem := by simpa [held] using mem
  kept m mem := .inr (by simpa [held] using mem)

theorem rewrites_newThrowable (s : State) :
    s.Rewrites (.throwable s.suppressed.size) []
      { s with suppressed := s.suppressed.push [] } where
  others n other := by
    refine held_congr (fun _ _ => rfl) (fun i eq => ?_) fun _ _ => rfl
    have older : i ≠ s.suppressed.size := fun same => other (same ▸ eq)
    rw [Array.getElem?_push, if_neg older]
  put m mem := nomatch mem
  kept m mem := by simp [held] at mem

theorem rewrites_newSite (s : State) (target : Option Handle) (generation : UInt64) :
    s.Rewrites (.site s.sites.size) (target.toList.map .handle)
      { s with sites := s.sites.push ⟨target, generation⟩ } where
  others n other := by
    refine held_congr (fun _ _ => rfl) (fun _ _ => rfl) fun i eq => ?_
    have older : i ≠ s.sites.size := fun same => other (same ▸ eq)
    rw [Array.getElem?_push, if_neg older]
  put m mem := by simpa [held] using mem
  kept m mem := .inr (by simpa [held] using mem)

theorem rewrites_setField (s : State) {o : ObjectRef} {index : Nat} (v : Value)
    (inside : index < (s.fields o).length) :
    s.Rewrites (.object o.id) v.node?.toList
      { s with objects := s.objects.setIfInBounds o.id ((s.fields o).set index v) } := by
  have there : o.id < s.objects.size := by
    by_contra beyond
    simp [fields, beyond] at inside
  have now : held { s with objects := s.objects.setIfInBounds o.id ((s.fields o).set index v) }
      (.object o.id) = ((s.fields o).set index v).filterMap Value.node? := by
    simp [held, there]
  refine ⟨fun n other => ?_, fun m mem => ?_, fun m mem => ?_⟩
  · refine held_congr (fun i eq => ?_) (fun _ _ => rfl) fun _ _ => rfl
    have apart : o.id ≠ i := fun same => other (same ▸ eq)
    exact Array.getElem?_setIfInBounds_ne apart
  · rw [now]
    exact List.mem_filterMap.2 ⟨v, List.mem_set inside v, Option.mem_toList.1 mem⟩
  · rw [now] at mem
    obtain ⟨w, memw, found⟩ := List.mem_filterMap.1 mem
    obtain old | rfl := List.mem_or_eq_of_mem_set memw
    · exact .inl (List.mem_filterMap.2 ⟨w, old, found⟩)
    · exact .inr (Option.mem_toList.2 found)

theorem rewrites_suppress (s : State) {t : Throwable} (other : Throwable)
    (there : t.id < s.suppressed.size) :
    s.Rewrites (.throwable t.id) [.throwable other.id]
      { s with suppressed := s.suppressed.setIfInBounds t.id (s.suppressedBy t ++ [other]) } := by
  have now : held
      { s with suppressed := s.suppressed.setIfInBounds t.id (s.suppressedBy t ++ [other]) }
      (.throwable t.id) = s.held (.throwable t.id) ++ [.throwable other.id] := by
    simp [held, suppressedBy, there]
  refine ⟨fun n apart => ?_, fun m mem => ?_, fun m mem => ?_⟩
  · refine held_congr (fun _ _ => rfl) (fun i eq => ?_) fun _ _ => rfl
    have other : t.id ≠ i := fun same => apart (same ▸ eq)
    exact Array.getElem?_setIfInBounds_ne other
  · rw [now]
    exact List.mem_append_right _ mem
  · rw [now] at mem
    exact List.mem_append.1 mem

theorem rewrites_setTarget (s : State) {site : CallSite} (target : Handle)
    (there : site.id < s.sites.size) :
    s.Rewrites (.site site.id) [.handle target]
      { s with
        sites := s.sites.modify site.id fun cell => ⟨some target, cell.generation + 1⟩ } := by
  have now : held { s with
      sites := s.sites.modify site.id fun cell => ⟨some target, cell.generation + 1⟩ }
      (.site site.id) = [.handle target] := by
    simp [held, Array.getElem_modify_self, there]
  refine ⟨fun n apart => ?_, fun m mem => ?_, fun m mem => ?_⟩
  · refine held_congr (fun _ _ => rfl) (fun _ _ => rfl) fun i eq => ?_
    have other : site.id ≠ i := fun same => apart (same ▸ eq)
    rw [Array.getElem?_modify, if_neg other]
  · rw [now]
    exact mem
  · rw [now] at mem
    exact .inr mem

end State
end TypedHandles
