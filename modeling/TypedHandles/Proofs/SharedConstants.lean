import Mathlib.Data.List.Pairwise
import TypedHandles.Proofs.Members
import TypedHandles.Proofs.Rewiring

/-!
Caches of constants and identities. What was served since the cache was last cleared decides what it
serves next: the same handle again to a request that agrees with an earlier one, and a new handle to
any other (`SharedHandles.Remembers`).

Two constants agree where they are of one kind and one value, and the value is `null`, a primitive
or a text. The key that a constant is found by does not tell the primitive kinds apart, so it goes
with the kind of the value; together they determine the value (`Value.key_eq_iff`), bit by bit.
-/
namespace TypedHandles

/-! Keys of values. -/

namespace Value

/-- The values that have nothing but their content: `null`, primitives and texts. -/
def IsAtomic (v : Value) : Prop := v = .null ∨ v.prim?.isSome = true ∨ ∃ text, v = .str text

theorem key?_isSome_iff {v : Value} : v.key?.isSome = true ↔ v.IsAtomic := by
  cases v <;> simp [key?, IsAtomic, prim?]

/-- Among values of one kind a key determines the value. -/
theorem key_eq_iff {v w : Value} {a b : ValueKey} (hv : v.key? = some a) (hw : w.key? = some b) :
    ((v.kind, a) == (w.kind, b)) = true ↔ v = w := by
  constructor
  · intro same
    obtain ⟨kind, key⟩ := Bool.and_eq_true_iff.1 same
    have key : a = b := eq_of_beq key
    subst key
    -- The kinds leave the pairs of one form, and there the key has all of the content.
    cases v <;> cases hv <;> cases w <;> cases kind <;> first
      | rfl
      | simp only [key?, Option.some.injEq, ValueKey.integral.injEq, ValueKey.bits.injEq,
          ValueKey.bool.injEq, ValueKey.str.injEq, Int8.toInt_inj, Int16.toInt_inj,
          Int32.toInt_inj, Int64.toInt_inj, Int.natCast_inj, UInt16.toNat_inj, UInt32.toNat_inj,
          UInt64.toNat_inj] at hw
        rw [hw]
  · rintro rfl
    cases hv.symm.trans hw
    exact BEq.rfl

/-- What is fitted to a kind fits it as it is, so it is not changed by being fitted again. -/
theorem coerce_of_coerce {v w : Value} {kind : Kind} (done : v.coerce kind = .ok w) :
    w.coerce kind = .ok w := by
  have nonVoid : kind ≠ .void := by
    rintro rfl
    cases done
  exact coerce_of_conforms nonVoid (conforms_of_coerce done)

end Value

namespace SharedHandles

/-! Requests. -/

/-- What a cache is asked for: a constant, of a value that was fitted to its kind, or an
identity. -/
inductive Request where
  | constant (kind : Kind) (value : Value)
  | identity (kind : Kind)

namespace Request

variable {q r r' : Request} {h : Handle}

/-- Requests that one handle serves: identities of one kind, and constants of one kind and one
value without an identity. -/
def Agrees : Request → Request → Prop
  | .constant k v, .constant l w => (k == l) = true ∧ v = w ∧ v.IsAtomic
  | .identity k, .identity l => (k == l) = true
  | .constant .., .identity _ | .identity _, .constant .. => False

theorem Agrees.symm (agrees : q.Agrees r) : r.Agrees q := by
  cases q <;> cases r
  case constant.constant k v l w =>
    obtain ⟨kinds, rfl, atomic⟩ := agrees
    exact ⟨(Kind.same_comm l k).trans kinds, rfl, atomic⟩
  case identity.identity k l => exact (Kind.same_comm l k).trans agrees
  all_goals exact agrees.elim

theorem Agrees.trans (first : q.Agrees r) (second : r.Agrees r') : q.Agrees r' := by
  cases q <;> cases r <;> cases r' <;> try first | exact first.elim | exact second.elim
  case constant.constant.constant k v l w m u =>
    obtain ⟨kinds, rfl, atomic⟩ := first
    obtain ⟨kinds', rfl, -⟩ := second
    exact ⟨(Kind.same_congr kinds m).trans kinds', rfl, atomic⟩
  case identity.identity.identity k l m => exact (Kind.same_congr first m).trans second

/-- A handle is what was asked for: it has the signature, and returns the very value or its own
argument, whatever else goes on. There is no identity of `void`. -/
def ServedBy : Request → Handle → Prop
  | .constant kind v, h => (h.signature == ⟨kind, []⟩) = true ∧
    ∀ host n s, h.invokeExact (runCode host (n + 1)) [] s = (.ok v, s)
  | .identity kind, h => kind ≠ .void ∧ (h.signature == ⟨kind, [kind]⟩) = true ∧
    ∀ host n s v, v.conforms kind = true →
      h.invokeExact (runCode host (n + 1)) [v] s = (.ok v, s)

/-- What serves a request serves every request that agrees. -/
theorem ServedBy.of_agrees (served : q.ServedBy h) (agrees : q.Agrees r) : r.ServedBy h := by
  cases q <;> cases r
  case constant.constant k v l w =>
    obtain ⟨kinds, rfl, -⟩ := agrees
    have signatures : ((⟨k, []⟩ : Signature) == ⟨l, []⟩) = true :=
      Signature.beq_iff_parts.2 ⟨kinds, BEq.rfl⟩
    exact ⟨Signature.beq_trans served.1 signatures, served.2⟩
  case identity.identity k l =>
    have signatures : ((⟨k, [k]⟩ : Signature) == ⟨l, [l]⟩) = true :=
      Signature.beq_iff_parts.2 ⟨agrees, beq_of_forall₂ (.cons agrees .nil)⟩
    obtain ⟨nonVoid, signature, returns⟩ := served
    refine ⟨?_, Signature.beq_trans signature signatures, fun host n s v conforms => ?_⟩
    · rintro rfl
      cases k with
      | void => exact nonVoid rfl
      | prim | ref => cases agrees
    · exact returns host n s v ((v.conforms_congr agrees).trans conforms)
  all_goals exact agrees.elim

/-- How a handle is made for a request that nothing serves yet. -/
def blueprint : Request → Except Failure Blueprint
  | .constant kind v => Blueprint.constant kind v
  | .identity kind => Blueprint.identity kind

/-- The value of a constant was fitted to its kind. -/
def IsFitted : Request → Prop
  | .constant kind v => v.coerce kind = .ok v
  | .identity _ => True

/-- A handle that is made for a request is what was asked for. -/
theorem servedBy_made {b : Blueprint} (fitted : r.IsFitted) (accepted : r.blueprint = .ok b)
    (id : Nat) : r.ServedBy ⟨id, b.signature, b.program, false⟩ := by
  cases r with
  | constant kind v =>
    cases (Blueprint.constant_of_fitted fitted).symm.trans accepted
    refine ⟨BEq.rfl, fun host n s => ?_⟩
    rw [@Handle.invokeExact_of_conform ⟨id, ⟨kind, []⟩, _, false⟩ _ _ .nil]
    show Program.perform (runCode host n) n _ [] s = _
    rw [Program.single_perform rfl]
    exact congrArg (fun kept => (Except.ok kept, s))
      (Kind.kept_of_conforms (Value.conforms_of_coerce fitted))
  | identity kind =>
    have accepted : Blueprint.identity kind = .ok b := accepted
    unfold Blueprint.identity at accepted
    cases made : Signature.make kind [kind] with
    | error failure =>
      rw [made] at accepted
      cases accepted
    | ok signature =>
      rw [made] at accepted
      cases accepted
      obtain ⟨rfl, wf⟩ := Signature.make_eq_ok_iff.1 made
      have nonVoid := wf.no_void kind (List.mem_singleton_self _)
      refine ⟨nonVoid, BEq.rfl, fun host n s v conforms => ?_⟩
      rw [@Handle.invokeExact_of_conform ⟨id, ⟨kind, [kind]⟩, _, false⟩ _ _ (.cons conforms .nil)]
      cases kind with
      | void => exact absurd rfl nonVoid
      | prim | ref => rfl

/-- A constant of a fitted value can be made, and so can every identity but that of `void`. -/
theorem blueprint_accepted (fitted : r.IsFitted) (present : r ≠ .identity .void) :
    ∃ b, r.blueprint = .ok b := by
  cases r with
  | constant kind v => exact ⟨_, Blueprint.constant_of_fitted fitted⟩
  | identity kind =>
    cases kind with
    | void => exact absurd rfl present
    | prim | ref => exact ⟨_, rfl⟩

end Request

/-! What a cache has for a request. -/

variable {c c' : SharedHandles} {q r : Request} {g h : Handle} {t t' : HandleTable}

/-- The handle that a cache has for a request. -/
def find? (c : SharedHandles) : Request → Option Handle
  | .constant kind v => v.key?.bind fun key => c.constants.lookup (kind, v.kind, key)
  | .identity kind => c.identities.lookup kind

/-- A cache with a handle for a request, if it is to be shared. -/
def keep (c : SharedHandles) : Request → Handle → SharedHandles
  | .constant kind v, h =>
    match v.key? with
    | some key => { c with constants := ((kind, v.kind, key), h) :: c.constants }
    | none => c
  | .identity kind, h => { c with identities := (kind, h) :: c.identities }

/-- Serves a request: by the handle that there is for it, or by a new one. -/
def serve (c : SharedHandles) (r : Request) : Build (Handle × SharedHandles) :=
  match c.find? r with
  | some h => pure (h, c)
  | none => do
    let h ← Build.accept r.blueprint
    return (h, c.keep r h)

theorem identity_eq (c : SharedHandles) (kind : Kind) :
    c.identity kind = c.serve (.identity kind) := rfl

/-- A value is fitted first, and what was fitted decides. -/
theorem constant_eq (c : SharedHandles) (kind : Kind) (value : Value) :
    c.constant kind value = (do
      let v ← Build.ofChecked (Checked.ofExcept (value.coerce kind))
      c.serve (.constant kind v)) := by
  unfold constant
  refine congrArg (_ >>= ·) (funext fun v => ?_)
  simp only [serve, find?, keep]
  cases v.key? with
  | none => rfl
  | some key =>
    dsimp only [Option.bind_some]
    cases c.constants.lookup (kind, v.kind, key) with
    | some shared => rfl
    | none => rfl

/-- A cache finds what it keeps for every request that agrees, and nothing else is changed. -/
theorem find?_keep_of_agrees (agrees : q.Agrees r) : (c.keep q h).find? r = some h := by
  cases q <;> cases r
  case constant.constant k v l w =>
    obtain ⟨kinds, rfl, atomic⟩ := agrees
    obtain ⟨key, keyed⟩ := Option.isSome_iff_exists.1 (Value.key?_isSome_iff.2 atomic)
    have found : ((l, v.kind, key) == (k, v.kind, key)) = true :=
      Bool.and_eq_true_iff.2 ⟨(Kind.same_comm l k).trans kinds, BEq.rfl⟩
    simp only [keep, find?, keyed, Option.bind_some, List.lookup_cons, found]
  case identity.identity k l =>
    have found : (l == k) = true := (Kind.same_comm l k).trans agrees
    simp only [keep, find?, List.lookup_cons, found]
  all_goals exact agrees.elim

theorem find?_keep_of_not_agrees (differ : ¬ q.Agrees r) : (c.keep q h).find? r = c.find? r := by
  cases q <;> cases r
  case constant.constant k v l w =>
    cases keyed : v.key? with
    | none => simp only [keep, keyed]
    | some a =>
      cases keyed' : w.key? with
      | none => simp only [find?, keyed', Option.bind_none]
      | some b =>
        have other : ((l, w.kind, b) == (k, v.kind, a)) = false := by
          refine eq_false_of_ne_true fun same => differ ?_
          obtain ⟨kinds, keys⟩ := Bool.and_eq_true_iff.1 same
          refine ⟨(Kind.same_comm k l).trans kinds, ?_, ?_⟩
          · exact ((Value.key_eq_iff keyed' keyed).1 keys).symm
          · exact Value.key?_isSome_iff.1 (keyed ▸ rfl)
        simp only [keep, find?, keyed, keyed', Option.bind_some, List.lookup_cons, other]
  case identity.identity k l =>
    have other : (l == k) = false :=
      eq_false_of_ne_true fun same => differ ((Kind.same_comm k l).trans same)
    simp only [keep, find?, List.lookup_cons, other]
  case identity.constant => rfl
  case constant.identity k v l =>
    cases keyed : v.key? with
    | none | some => simp only [keep, find?, keyed]

/-- The ways to serve a request. -/
inductive Serves (c : SharedHandles) (r : Request) (t : HandleTable) :
    Handle → SharedHandles → HandleTable → Prop
  | shared {h : Handle} : c.find? r = some h → Serves c r t h c t
  | made {h : Handle} {t' : HandleTable} : c.find? r = none → h.id = t.adapters.size →
      t'.adapters.size = t.adapters.size + 1 → r.ServedBy h → Serves c r t h (c.keep r h) t'

theorem serves_of_serve (fitted : r.IsFitted) (served : c.serve r t = (.ok (h, c'), t')) :
    c.Serves r t h c' t' := by
  unfold serve at served
  cases found : c.find? r with
  | some shared =>
    rw [found] at served
    cases served
    exact .shared found
  | none =>
    rw [found] at served
    obtain ⟨made, u, accepted, kept⟩ := bind_eq_ok served
    cases kept
    cases blueprint : r.blueprint with
    | error failure =>
      rw [blueprint] at accepted
      cases accepted
    | ok b =>
      rw [blueprint] at accepted
      cases accepted
      exact .made found rfl (Array.size_push _) (r.servedBy_made fitted blueprint _)

/-- Every request is served but that for the identity of `void`. -/
theorem serve_accepted (fitted : r.IsFitted) (present : r ≠ .identity .void) (t : HandleTable) :
    ∃ h c' t', c.serve r t = (.ok (h, c'), t') := by
  unfold serve
  cases c.find? r with
  | some shared => exact ⟨shared, c, t, rfl⟩
  | none =>
    obtain ⟨b, accepted⟩ := r.blueprint_accepted fitted present
    rw [accepted]
    exact ⟨_, _, _, rfl⟩

/-! What was served, and what is served next. -/

/-- What was served, the latest first: each request with its handle. -/
abbrev Log := List (Request × Handle)

/-- A cache with what it served since it was cleared, where so many handles were made so far. What
it finds was served to a request that agrees, and what was served to a request that agrees is found;
handles that are the same were served to requests that agree. -/
structure Remembers (c : SharedHandles) (log : Log) (count : Nat) : Prop where
  inside : ∀ e ∈ log, e.2.id < count
  served : ∀ e ∈ log, e.1.ServedBy e.2
  sound : ∀ r h, c.find? r = some h → ∃ e ∈ log, e.1.Agrees r ∧ e.2 = h
  complete : ∀ e ∈ log, ∀ r, e.1.Agrees r → c.find? r = some e.2
  apart : log.Pairwise fun e f => e.2.same f.2 = true → e.1.Agrees f.1

namespace Remembers

variable {log : Log} {count more : Nat}

theorem empty (count : Nat) : SharedHandles.empty.Remembers [] count := by
  refine ⟨List.forall_mem_nil _, List.forall_mem_nil _, fun r h found => ?_, List.forall_mem_nil _,
    .nil⟩
  cases r with
  | constant kind v =>
    unfold find? at found
    cases keyed : v.key? <;> simp [SharedHandles.empty, keyed] at found
  | identity => cases found

/-- Handles that are made elsewhere make no difference. -/
theorem mono (remembers : c.Remembers log count) (grows : count ≤ more) : c.Remembers log more :=
  { remembers with inside := fun e mem => Nat.lt_of_lt_of_le (remembers.inside e mem) grows }

/-- What was served under one number was served to requests that agree, if one of them is
shared. -/
theorem agrees_of_same (remembers : c.Remembers log count) {e f : Request × Handle} (he : e ∈ log)
    (hf : f ∈ log) (shared : e.1.Agrees e.1) (same : e.2.same f.2 = true) : e.1.Agrees f.1 := by
  by_cases equal : e = f
  · exact equal ▸ shared
  · have symmetric : Std.Symm fun e f : Request × Handle =>
        e.2.same f.2 = true → e.1.Agrees f.1 :=
      ⟨fun e f relates same => (relates (BEq.symm same)).symm⟩
    exact remembers.apart.forall he hf equal same

/-- What is served next is remembered as well. -/
theorem serve (remembers : c.Remembers log t.adapters.size) (serves : c.Serves r t h c' t') :
    c'.Remembers ((r, h) :: log) t'.adapters.size := by
  cases serves with
  | shared found =>
    obtain ⟨e, mem, agrees, rfl⟩ := remembers.sound r h found
    refine ⟨List.forall_mem_cons.2 ⟨remembers.inside e mem, remembers.inside⟩,
      List.forall_mem_cons.2 ⟨(remembers.served e mem).of_agrees agrees, remembers.served⟩,
      fun q g found => ?_, List.forall_mem_cons.2 ⟨fun q agrees' => ?_, remembers.complete⟩,
      .cons (fun f mem' same => ?_) remembers.apart⟩
    · obtain ⟨f, mem, rest⟩ := remembers.sound q g found
      exact ⟨f, List.mem_cons_of_mem _ mem, rest⟩
    · exact remembers.complete e mem q (agrees.trans agrees')
    · exact agrees.symm.trans
        (remembers.agrees_of_same mem mem' (agrees.trans agrees.symm) same)
  | made absent fresh grows served =>
    have unserved : ∀ e ∈ log, ¬ e.1.Agrees r := fun e mem agrees => by
      cases absent.symm.trans (remembers.complete e mem r agrees)
    refine ⟨List.forall_mem_cons.2 ⟨fresh ▸ grows ▸ Nat.lt_succ_self _, fun e mem => ?_⟩,
      List.forall_mem_cons.2 ⟨served, remembers.served⟩, fun q g found => ?_,
      List.forall_mem_cons.2 ⟨fun q => find?_keep_of_agrees, fun e mem q agrees => ?_⟩,
      .cons (fun f mem same => ?_) remembers.apart⟩
    · have := remembers.inside e mem
      omega
    · by_cases agrees : r.Agrees q
      · rw [find?_keep_of_agrees agrees] at found
        cases found
        exact ⟨_, List.mem_cons_self, agrees, rfl⟩
      · rw [find?_keep_of_not_agrees agrees] at found
        obtain ⟨e, mem, rest⟩ := remembers.sound q g found
        exact ⟨e, List.mem_cons_of_mem _ mem, rest⟩
    · have differ : ¬ r.Agrees q := fun agrees' => unserved e mem (agrees.trans agrees'.symm)
      rw [find?_keep_of_not_agrees differ]
      exact remembers.complete e mem q agrees
    · have := remembers.inside f mem
      have same : h.id = f.2.id := eq_of_beq same
      omega

end Remembers

/-- A request that is not served changes no handle. -/
theorem serve_refused {e : Halt} (refused : c.serve r t = (.error e, t')) : t' = t := by
  unfold serve at refused
  cases found : c.find? r with
  | some shared =>
    rw [found] at refused
    cases refused
  | none =>
    rw [found] at refused
    cases blueprint : r.blueprint with
    | error failure =>
      rw [blueprint] at refused
      cases refused
      rfl
    | ok b =>
      rw [blueprint] at refused
      cases refused

end SharedHandles

/-! Caches of a state. -/

section Caches

open SharedHandles

variable {cache : Nat} {c : SharedHandles} {s s' : State} {h : Handle} {r : Request} {kind : Kind}
  {value v : Value} {log : Log}

/-- A constant of a value that fits its kind is a request for what was fitted. -/
theorem cachedConstant_of_coerce (done : value.coerce kind = .ok v) :
    cachedConstant cache kind value = withCache cache (·.serve (.constant kind v)) := by
  refine congrArg (withCache cache) (funext fun c => ?_)
  rw [constant_eq, done]
  rfl

theorem cachedConstant_of_error {failure : Failure} (found : s.caches[cache]? = some c)
    (failed : value.coerce kind = .error failure) :
    cachedConstant cache kind value s = (.error (.failed failure), s) := by
  refine withCache_of_error (t := s.handles) found ?_
  rw [constant_eq, failed]
  rfl

/-- A cache serves a request, and remembers it. -/
theorem serves_of_withCache (found : s.caches[cache]? = some c)
    (remembers : c.Remembers log s.handles.adapters.size) (fitted : r.IsFitted)
    (done : withCache cache (·.serve r) s = (.ok h, s')) :
    ∃ c', s'.caches[cache]? = some c' ∧
      c'.Remembers ((r, h) :: log) s'.handles.adapters.size := by
  match served : c.serve r s.handles with
  | (.error e, t) => cases (withCache_of_error found served).symm.trans done
  | (.ok (h', c'), t) =>
    cases (withCache_of_ok found served).symm.trans done
    have inside := (Array.getElem?_eq_some_iff.1 found).1
    exact ⟨c', by simp [inside], remembers.serve (serves_of_serve fitted served)⟩

theorem eq_of_withCache_refused {e : Halt} (found : s.caches[cache]? = some c)
    (refused : withCache cache (·.serve r) s = (.error e, s')) : s' = s := by
  match served : c.serve r s.handles with
  | (.error e, t) =>
    cases (withCache_of_error found served).symm.trans refused
    rw [serve_refused served]
  | (.ok (h', c'), t) => cases (withCache_of_ok found served).symm.trans refused

/-- What users do with one cache, by whichever lookups, and what it served since it was last
cleared. Anything else may happen in between: other caches are used, handles are made and run. -/
inductive CacheHistory (cache : Nat) : Log → State → Prop
  | start {s : State} : s.caches[cache]? = some .empty → CacheHistory cache [] s
  | constant {log : Log} {s s' : State} {h : Handle} {kind : Kind} {value v : Value} :
      CacheHistory cache log s → value.coerce kind = .ok v →
      cachedConstant cache kind value s = (.ok h, s') →
      CacheHistory cache ((.constant kind v, h) :: log) s'
  | identity {log : Log} {s s' : State} {h : Handle} {kind : Kind} : CacheHistory cache log s →
      cachedIdentity cache kind s = (.ok h, s') →
      CacheHistory cache ((.identity kind, h) :: log) s'
  | refusedConstant {log : Log} {s s' : State} {e : Halt} {kind : Kind} {value : Value} :
      CacheHistory cache log s → cachedConstant cache kind value s = (.error e, s') →
      CacheHistory cache log s'
  | refusedIdentity {log : Log} {s s' : State} {e : Halt} {kind : Kind} :
      CacheHistory cache log s → cachedIdentity cache kind s = (.error e, s') →
      CacheHistory cache log s'
  | clear {log : Log} {s s' : State} : CacheHistory cache log s →
      clearCache cache s = (.ok (), s') → CacheHistory cache [] s'
  | elsewhere {log : Log} {s s' : State} : CacheHistory cache log s →
      s'.caches[cache]? = s.caches[cache]? →
      s.handles.adapters.size ≤ s'.handles.adapters.size → CacheHistory cache log s'

/-- At every time the cache remembers what it served. -/
theorem CacheHistory.remembers (history : CacheHistory cache log s) :
    ∃ c, s.caches[cache]? = some c ∧ c.Remembers log s.handles.adapters.size := by
  induction history with
  | start found => exact ⟨_, found, .empty _⟩
  | constant _ fitted done ih =>
    obtain ⟨c, found, remembers⟩ := ih
    rw [cachedConstant_of_coerce fitted] at done
    exact serves_of_withCache found remembers (Value.coerce_of_coerce fitted) done
  | identity _ done ih =>
    obtain ⟨c, found, remembers⟩ := ih
    exact serves_of_withCache (r := .identity _) found remembers trivial done
  | @refusedConstant _ _ _ _ kind value _ refused ih =>
    obtain ⟨c, found, remembers⟩ := ih
    cases fitted : value.coerce kind with
    | error failure =>
      cases (cachedConstant_of_error found fitted).symm.trans refused
      exact ⟨c, found, remembers⟩
    | ok v =>
      rw [cachedConstant_of_coerce fitted] at refused
      cases eq_of_withCache_refused found refused
      exact ⟨c, found, remembers⟩
  | @refusedIdentity _ _ _ _ kind _ refused ih =>
    obtain ⟨c, found, remembers⟩ := ih
    cases eq_of_withCache_refused (r := .identity kind) found refused
    exact ⟨c, found, remembers⟩
  | clear _ done ih =>
    obtain ⟨c, found, -⟩ := ih
    cases done
    have inside := (Array.getElem?_eq_some_iff.1 found).1
    exact ⟨.empty, by simp [inside], .empty _⟩
  | elsewhere _ same grows ih =>
    obtain ⟨c, found, remembers⟩ := ih
    exact ⟨c, same.trans found, remembers.mono grows⟩

/-- A cache serves what was asked for and shares exactly the constants that cannot be told apart. In
every history of a cache, a constant is served if its value fits the kind, and it is refused with
the same failure and no change if not; an identity is served for every kind but `void`. What was
served has the signature asked for, and returns the very value that was fitted, or its argument. Of
any two requests that were served since the cache was cleared, both got the same handle exactly if
they agree. -/
theorem shared_constants (history : CacheHistory cache log s) :
    (∀ l : Lookup, l.cache = cache → l.constant = cachedConstant cache) ∧
    (∀ kind value failure, value.coerce kind = .error failure →
      cachedConstant cache kind value s = (.error (.failed failure), s)) ∧
    (∀ kind value v, value.coerce kind = .ok v → ∃ h s',
      cachedConstant cache kind value s = (.ok h, s') ∧
        CacheHistory cache ((.constant kind v, h) :: log) s') ∧
    cachedIdentity cache .void s = (.error (.failed (.voidParameter 0)), s) ∧
    (∀ kind, kind ≠ .void → ∃ h s', cachedIdentity cache kind s = (.ok h, s') ∧
      CacheHistory cache ((.identity kind, h) :: log) s') ∧
    (∃ s', clearCache cache s = (.ok (), s') ∧ CacheHistory cache [] s') ∧
    (∀ e ∈ log, e.1.ServedBy e.2) ∧
    log.Pairwise fun e f =>
      (e.2.same f.2 = true ↔ e.1.Agrees f.1) ∧ (e.1.Agrees f.1 → e.2 = f.2) := by
  obtain ⟨c, found, remembers⟩ := history.remembers
  have accepts : ∀ r : Request, r.IsFitted → r ≠ .identity .void → ∃ h s',
      withCache cache (·.serve r) s = (.ok h, s') := fun r fitted present => by
    obtain ⟨h, c', t, served⟩ := serve_accepted (c := c) fitted present s.handles
    exact ⟨h, _, withCache_of_ok found served⟩
  refine ⟨?_, fun kind value failure failed => cachedConstant_of_error found failed,
    fun kind value v fitted => ?_, ?_, fun kind nonVoid => ?_, ⟨_, rfl, history.clear rfl⟩,
    remembers.served, ?_⟩
  · rintro l rfl
    rfl
  · obtain ⟨h, s', done⟩ := accepts (.constant kind v) (Value.coerce_of_coerce fitted) nofun
    rw [← cachedConstant_of_coerce fitted] at done
    exact ⟨h, s', done, history.constant fitted done⟩
  · have absent : c.find? (.identity .void) = none := by
      refine Option.eq_none_iff_forall_not_mem.2 fun h kept => ?_
      obtain ⟨e, mem, agrees, -⟩ := remembers.sound _ h kept
      exact ((remembers.served e mem).of_agrees agrees).1 rfl
    refine withCache_of_error (t := s.handles) found ?_
    rw [identity_eq, SharedHandles.serve, absent]
    rfl
  · obtain ⟨h, s', done⟩ := accepts (.identity kind) trivial (by simpa using nonVoid)
    exact ⟨h, s', done, history.identity done⟩
  · have agree : ∀ e ∈ log, ∀ f ∈ log, e.1.Agrees f.1 → e.2 = f.2 := fun e he f hf agrees => by
      have first := remembers.complete e he f.1 agrees
      have second := remembers.complete f hf f.1 (agrees.symm.trans agrees)
      exact Option.some.inj (first.symm.trans second)
    refine remembers.apart.imp_of_mem fun {e f} he hf apart => ?_
    refine ⟨⟨apart, fun agrees => ?_⟩, agree e he f hf⟩
    rw [agree e he f hf agrees]
    exact BEq.rfl

/-- The number three as an `int` and as a `long`, in slots of `Object`. -/
theorem shared_constants_boxed :
    ∃ (s : State) (a b : Handle), CacheHistory 0
        [(.constant .object (.long 3), b), (.constant .object (.int 3), a)] s ∧
      a.same b = false ∧ a.invokeExact (runCode .echo 1) [] s = (.ok (.int 3), s) ∧
      b.invokeExact (runCode .echo 1) [] s = (.ok (.long 3), s) := by
  have start : CacheHistory 0 [] (newCache .empty).2 := .start rfl
  have first := @CacheHistory.constant 0 _ _ _ _ .object (.int 3) (.int 3) start rfl rfl
  have second := @CacheHistory.constant 0 _ _ _ _ .object (.long 3) (.long 3) first rfl rfl
  obtain ⟨-, -, -, -, -, -, served, apart⟩ := shared_constants second
  have three := (served _ (List.mem_cons_of_mem _ List.mem_cons_self)).2 .echo 0
  have long := (served _ List.mem_cons_self).2 .echo 0
  have differ := ((List.pairwise_cons.1 apart).1 _ List.mem_cons_self).1
  refine ⟨_, _, _, second, ?_, three _, long _⟩
  refine eq_false_of_ne_true fun same => ?_
  obtain ⟨-, equal, -⟩ := differ.1 (BEq.symm same)
  cases equal

end Caches
end TypedHandles
