import Mathlib.Data.List.Nodup
import TypedHandles.Proofs.SameKinds
import TypedHandles.Session

/-!
Pools of signatures. What a pool finds is decided by what it was asked for since it was last
cleared, under any hash that equal signatures agree in: the instance that was asked for first, of
those with an equal signature (`SignaturePool.Reflects`).

Nothing is assumed of the hash beyond that, so all signatures may lie in one bucket. The descriptor
of a signature is such a hash (`Signature.descriptor_congr`).
-/
namespace TypedHandles

/-! Descriptors. -/

mutual

theorem Kind.text_congr {k l : Kind} (h : k.same l = true) : k.text = l.text := by
  match k, l with
  | .void, .void => rfl
  | .prim p, .prim q =>
    simp only [Kind.same, beq_iff_eq] at h
    rw [h]
  | .ref r, .ref s => exact RefType.text_congr h
  | .void, .prim _ | .void, .ref _ | .prim _, .void | .prim _, .ref _ | .ref _, .void
  | .ref _, .prim _ => cases h

theorem RefType.text_congr {r s : RefType} (h : r.same s = true) : r.text = s.text := by
  cases r <;> cases s <;> simp only [RefType.same, beq_iff_eq, Bool.false_eq_true] at h <;>
    try rfl
  case boxed => rw [h]
  case array a b => rw [RefType.text, RefType.text, Kind.text_congr h]
  case cls => exact h

end

theorem texts_congr {ks ls : List Kind} (same : (ks == ls) = true) :
    ks.map Kind.text = ls.map Kind.text := by
  refine List.forall₂_eq_eq_eq ▸ ?_
  rw [List.forall₂_map_left_iff, List.forall₂_map_right_iff]
  exact (forall₂_of_beq same).imp fun _ _ => Kind.text_congr

/-- Equal signatures have equal descriptors, whatever their classes declare. -/
theorem Signature.descriptor_congr {s t : Signature} (same : (s == t) = true) :
    s.descriptor = t.descriptor := by
  obtain ⟨ret, params⟩ := beq_iff_parts.1 same
  rw [descriptor, descriptor, texts_congr params, Kind.text_congr ret]

namespace Signature

variable {s t u : Signature}

theorem beq_symm (same : (s == t) = true) : (t == s) = true := by
  rw [← beq_congr same]
  exact BEq.rfl

theorem beq_comm (s t : Signature) : (s == t) = (t == s) :=
  Bool.eq_iff_iff.2 ⟨beq_symm, beq_symm⟩

theorem beq_congr_right (same : (s == t) = true) (u : Signature) : (u == s) = (u == t) := by
  rw [beq_comm u s, beq_comm u t, beq_congr same]

end Signature

/-! Distinct signatures. -/

theorem eraseDupsBy_loop_cons {α : Type} {r : α → α → Bool} (a : α) (as seen : List α) :
    List.eraseDupsBy.loop r (a :: as) seen =
      List.eraseDupsBy.loop r as (if seen.any (r a) then seen else a :: seen) := by
  rw [List.eraseDupsBy.loop]
  split <;> simp [*]

/-- What is among the distinct members of a list is among its members, up to an equivalence. -/
theorem any_eraseDupsBy_loop {α : Type} {r : α → α → Bool}
    (congr : ∀ {a b}, r a b = true → ∀ c, r c a = r c b) (s : α) (as seen : List α) :
    (List.eraseDupsBy.loop r as seen).any (r s) = (seen.any (r s) || as.any (r s)) := by
  induction as generalizing seen with
  | nil => simp [List.eraseDupsBy.loop]
  | cons a as ih =>
    rw [eraseDupsBy_loop_cons, ih, List.any_cons]
    cases known : seen.any (r a) with
    | false => simp [Bool.or_left_comm, Bool.or_assoc]
    | true =>
      obtain ⟨b, mem, alike⟩ := List.any_eq_true.1 known
      have covered : r s a = true → seen.any (r s) = true := fun h =>
        List.any_eq_true.2 ⟨b, mem, (congr alike s).symm.trans h⟩
      cases here : r s a with
      | false => rfl
      | true => simp [covered here]

theorem eraseDupsBy_loop_concat {α : Type} {r : α → α → Bool} (s : α) (as seen : List α) :
    List.eraseDupsBy.loop r (as ++ [s]) seen =
      if (List.eraseDupsBy.loop r as seen).any (r s) then List.eraseDupsBy.loop r as seen
      else List.eraseDupsBy.loop r as seen ++ [s] := by
  induction as generalizing seen with
  | nil =>
    simp only [List.nil_append, List.eraseDupsBy.loop, List.any_reverse]
    split <;> simp [*]
  | cons a as ih => simp only [List.cons_append, eraseDupsBy_loop_cons, ih]

/-- One more signature is distinct from the earlier ones, or it is not. -/
theorem eraseDups_concat (signatures : List Signature) (s : Signature) :
    (signatures ++ [s]).eraseDups =
      if signatures.any (s == ·) then signatures.eraseDups else signatures.eraseDups ++ [s] := by
  unfold List.eraseDups List.eraseDupsBy
  rw [eraseDupsBy_loop_concat, any_eraseDupsBy_loop Signature.beq_congr_right]
  rfl

namespace SignaturePool

/-! One step of a pool. -/

variable {p q : SignaturePool} {s t : Signature} {w c : SharedSignature} {h : UInt64}

theorem bucket_add_self : (p.add w).bucket (p.hash w.signature) =
    p.bucket (p.hash w.signature) ++ [w] := by
  simp [add, bucket]

theorem bucket_add_of_ne (other : h ≠ p.hash w.signature) : (p.add w).bucket h = p.bucket h := by
  have differ : (h == p.hash w.signature) = false := beq_eq_false_iff_ne.2 other
  have kept : (p.buckets.filter (·.1 != p.hash w.signature)).lookup h = p.buckets.lookup h := by
    induction p.buckets with
    | nil => rfl
    | cons entry rest ih =>
      rw [List.filter_cons]
      split
      · rw [List.lookup_cons, List.lookup_cons, ih]
      · next removed =>
        have here : entry.1 = p.hash w.signature := by simpa using removed
        rw [ih, List.lookup_cons, here, differ]
  simp only [add, bucket, List.lookup_cons, differ, kept]

/-- A pool under a hash that equal signatures agree in, with one bucket for each hash. -/
structure Sound (p : SignaturePool) : Prop where
  respects : ∀ {s t : Signature}, (s == t) = true → p.hash s = p.hash t
  hashes : (p.buckets.map (·.1)).Nodup

theorem Sound.add (sound : p.Sound) (w : SharedSignature) : (p.add w).Sound where
  respects := sound.respects
  hashes := by
    have others : ((p.buckets.filter (·.1 != p.hash w.signature)).map (·.1)).Nodup :=
      sound.hashes.sublist (List.filter_sublist.map _)
    simpa [SignaturePool.add] using others

/-- After a signature was added it is found where nothing was found before, and the rest is found
as it was. -/
theorem Sound.find?_add (sound : p.Sound) (w : SharedSignature) (s : Signature) :
    (p.add w).find? s = (p.find? s).or (if w.signature == s then some w else none) := by
  show ((p.add w).bucket (p.hash s)).find? _ = ((p.bucket (p.hash s)).find? _).or _
  by_cases here : p.hash s = p.hash w.signature
  · rw [here, bucket_add_self, List.find?_append, List.find?_singleton]
  · have differ : (w.signature == s) = false :=
      eq_false_of_ne_true fun same => here (sound.respects same).symm
    simp [bucket_add_of_ne here, differ]

/-- The instances are those of one bucket and those of the other ones. -/
theorem length_buckets {buckets : List (UInt64 × List SharedSignature)}
    (hashes : (buckets.map (·.1)).Nodup) (h : UInt64) :
    (buckets.flatMap (·.2)).length = ((buckets.lookup h).getD []).length +
      ((buckets.filter (·.1 != h)).flatMap (·.2)).length := by
  induction buckets with
  | nil => rfl
  | cons entry rest ih =>
    obtain ⟨key, instances⟩ := entry
    obtain ⟨absent, hashes⟩ := List.nodup_cons.1 hashes
    by_cases here : h = key
    · subst here
      have others : rest.filter (·.1 != h) = rest :=
        List.filter_eq_self.2 fun other mem =>
          bne_iff_ne.2 fun same => absent (List.mem_map.2 ⟨other, mem, same⟩)
      simp [others]
    · have differ : (h == key) = false := beq_eq_false_iff_ne.2 here
      have kept : (key != h) = true := bne_iff_ne.2 (Ne.symm here)
      simp only [List.lookup_cons, differ, List.filter_cons, kept, if_true, List.flatMap_cons,
        List.length_append, ih hashes]
      omega

theorem Sound.size_add (sound : p.Sound) (w : SharedSignature) : (p.add w).size = p.size + 1 := by
  have before := length_buckets sound.hashes (p.hash w.signature)
  simp only [size, SignaturePool.add, bucket, List.flatMap_cons, List.length_append,
    List.length_singleton]
  omega

/-! What was asked for, and what is found next. -/

/-- What a pool was asked for, each time with what it gave, in the order of the requests. -/
abbrev Log := List (SharedSignature × SharedSignature)

/-- The instance that was asked for first, of those with an equal signature. -/
def Log.first? (log : Log) (s : Signature) : Option SharedSignature :=
  (log.map (·.1)).find? (·.signature == s)

/-- What is given next for an instance: the one that came first, or else itself. -/
def Log.canonical (log : Log) (w : SharedSignature) : SharedSignature :=
  (log.first? w.signature).getD w

variable {log : Log}

namespace Log

theorem first?_congr (same : (s == t) = true) : log.first? s = log.first? t := by
  have alike : (fun i : SharedSignature => i.signature == s) = fun i => i.signature == t :=
    funext fun i => Signature.beq_congr_right same i.signature
  rw [first?, first?, alike]

theorem first?_concat (log : Log) (w c : SharedSignature) (s : Signature) :
    first? (log ++ [(w, c)]) s =
      (log.first? s).or (if w.signature == s then some w else none) := by
  simp [first?]

theorem mem_of_first? (found : log.first? s = some w) :
    w ∈ log.map (·.1) ∧ (w.signature == s) = true :=
  ⟨List.mem_of_find?_eq_some found,
    List.find?_some (p := fun i : SharedSignature => i.signature == s) found⟩

theorem first?_isSome (log : Log) (s : Signature) :
    (log.first? s).isSome = (log.map (·.1.signature)).any (s == ·) := by
  rw [Bool.eq_iff_iff, first?, List.find?_isSome, List.any_eq_true]
  simp [Signature.beq_comm s]

end Log

/-- What a pool has, by what it was asked for since it was cleared. -/
structure Reflects (p : SignaturePool) (log : Log) : Prop where
  sound : p.Sound
  finds : ∀ s, p.find? s = log.first? s
  gave : ∀ e ∈ log, log.first? e.1.signature = some e.2
  size : p.size = (log.map (·.1.signature)).eraseDups.length

namespace Reflects

/-- A pool without instances was asked for nothing. -/
theorem hashedBy {hash : Signature → UInt64}
    (respects : ∀ s t : Signature, (s == t) = true → hash s = hash t) :
    (SignaturePool.hashedBy hash).Reflects [] :=
  ⟨⟨respects _ _, .nil⟩, fun _ => rfl, List.forall_mem_nil _, rfl⟩

theorem clear (reflects : p.Reflects log) : p.clear.Reflects [] :=
  hashedBy fun _ _ => reflects.sound.respects

/-- What was given before is what is found after one more request. -/
theorem gave_concat (reflects : p.Reflects log) (here : log.canonical w = c) :
    ∀ e ∈ log ++ [(w, c)], Log.first? (log ++ [(w, c)]) e.1.signature = some e.2 := by
  intro e mem
  rw [Log.first?_concat]
  rcases List.mem_append.1 mem with earlier | last
  · rw [reflects.gave e earlier, Option.some_or]
  · rw [List.mem_singleton.1 last, ← here, Log.canonical]
    cases log.first? w.signature <;> simp

theorem intern (reflects : p.Reflects log) (w : SharedSignature) :
    (p.intern w).1 = log.canonical w ∧
      (p.intern w).2.Reflects (log ++ [(w, log.canonical w)]) := by
  have found := reflects.finds w.signature
  have signatures : (log ++ [(w, log.canonical w)]).map (·.1.signature) =
      log.map (·.1.signature) ++ [w.signature] := by simp
  have known := log.first?_isSome w.signature
  cases first : log.first? w.signature with
  | some c =>
    have given : log.canonical w = c := by rw [Log.canonical, first, Option.getD_some]
    have kept : p.intern w = (c, p) := by rw [SignaturePool.intern, found, first]
    rw [first, Option.isSome_some] at known
    refine ⟨by rw [kept, given], ?_⟩
    rw [kept]
    refine ⟨reflects.sound, fun s => ?_, reflects.gave_concat rfl, ?_⟩
    · rw [Log.first?_concat, reflects.finds s]
      split
      · next same => rw [← Log.first?_congr same, first, Option.some_or]
      · rw [Option.or_none]
    · rw [signatures, eraseDups_concat, if_pos known.symm, reflects.size]
  | none =>
    have given : log.canonical w = w := by rw [Log.canonical, first, Option.getD_none]
    have kept : p.intern w = (w, p.add w) := by rw [SignaturePool.intern, found, first]
    rw [first, Option.isSome_none] at known
    refine ⟨by rw [kept, given], ?_⟩
    rw [kept]
    refine ⟨reflects.sound.add w, fun s => ?_, reflects.gave_concat rfl, ?_⟩
    · rw [Log.first?_concat, reflects.sound.find?_add, reflects.finds s]
    · rw [signatures, eraseDups_concat, if_neg (ne_true_of_eq_false known.symm),
        reflects.sound.size_add, reflects.size, List.length_append, List.length_singleton]

end Reflects
end SignaturePool

/-! Pools of a session. -/

section Sessions

open SignaturePool

variable {index : Nat} {s s' : Session} {p q : SignaturePool}

theorem Session.pool_of_getElem? (found : s.pools[index]? = some p) : s.pool index = p := by
  rw [pool, found, Option.getD_some]

theorem Session.getElem?_setPool (found : s.pools[index]? = some p) (q : SignaturePool) :
    (s.setPool index q).pools[index]? = some q := by
  have inside := (Array.getElem?_eq_some_iff.1 found).1
  simp [setPool, inside]

theorem Session.intern_eq (w : SharedSignature) : s.intern index w =
    (((s.pool index).intern w).1, s.setPool index ((s.pool index).intern w).2) := rfl

theorem Session.makeInterned_of_ok {ret : Kind} {params : List Kind} {signature : Signature}
    (made : Signature.make ret params = .ok signature) :
    s.makeInterned index ret params =
      (.ok ((s.pool index).intern ⟨s.signatures, signature⟩).1,
        { s.setPool index ((s.pool index).intern ⟨s.signatures, signature⟩).2 with
          signatures := s.signatures + 1 }) := by
  rw [makeInterned, make, made]
  rfl

theorem Session.makeInterned_of_error {ret : Kind} {params : List Kind} {failure : Failure}
    (refused : Signature.make ret params = .error failure) :
    s.makeInterned index ret params = (.error failure, s) := by
  rw [makeInterned, make, refused]
  rfl

/-- What users do with one pool: the signatures that there are, by the numbers of their instances,
and what the pool was asked for since it was last cleared. Anything else may happen in between:
signatures are made elsewhere, and other pools are used. -/
inductive PoolHistory (hash : Signature → UInt64) (index : Nat) :
    List Signature → Log → Session → Prop
  | start {there : List Signature} {s : Session} : s.pools[index]? = some (.hashedBy hash) →
      there.length = s.signatures → PoolHistory hash index there [] s
  | make {there : List Signature} {log : Log} {s s' : Session} {ret : Kind} {params : List Kind}
      {c : SharedSignature} : PoolHistory hash index there log s →
      s.makeInterned index ret params = (.ok c, s') →
      PoolHistory hash index (there ++ [⟨ret, params⟩])
        (log ++ [(⟨there.length, ⟨ret, params⟩⟩, c)]) s'
  | refused {there : List Signature} {log : Log} {s s' : Session} {ret : Kind}
      {params : List Kind} {failure : Failure} : PoolHistory hash index there log s →
      s.makeInterned index ret params = (.error failure, s') → PoolHistory hash index there log s'
  | intern {there : List Signature} {log : Log} {s s' : Session} {w c : SharedSignature} :
      PoolHistory hash index there log s → there[w.id]? = some w.signature →
      s.intern index w = (c, s') → PoolHistory hash index there (log ++ [(w, c)]) s'
  | clear {there : List Signature} {log : Log} {s : Session} :
      PoolHistory hash index there log s →
      PoolHistory hash index there [] (s.setPool index (s.pool index).clear)
  | elsewhere {there more : List Signature} {log : Log} {s s' : Session} :
      PoolHistory hash index there log s → s'.pools[index]? = s.pools[index]? →
      (there ++ more).length = s'.signatures → PoolHistory hash index (there ++ more) log s'

variable {hash : Signature → UInt64} {there : List Signature} {log : Log}

/-- At every time a pool reflects what it was asked for, and what it was asked for is there. -/
theorem PoolHistory.reflects (respects : ∀ s t : Signature, (s == t) = true → hash s = hash t)
    (history : PoolHistory hash index there log s) :
    (∃ p, s.pools[index]? = some p ∧ p.Reflects log) ∧ there.length = s.signatures ∧
      ∀ e ∈ log, there[e.1.id]? = some e.1.signature := by
  induction history with
  | start found count => exact ⟨⟨_, found, .hashedBy respects⟩, count, List.forall_mem_nil _⟩
  | @make there log s s' ret params c history done ih =>
    obtain ⟨⟨p, found, reflects⟩, count, given⟩ := ih
    cases made : Signature.make ret params with
    | error failure => cases (Session.makeInterned_of_error made).symm.trans done
    | ok signature =>
      obtain ⟨rfl, -⟩ := Signature.make_eq_ok_iff.1 made
      cases (Session.makeInterned_of_ok made).symm.trans done
      obtain ⟨gave, next⟩ := reflects.intern ⟨s.signatures, ⟨ret, params⟩⟩
      rw [Session.pool_of_getElem? found, gave, count]
      refine ⟨⟨_, Session.getElem?_setPool found _, next⟩, by simp [count], fun e mem => ?_⟩
      rcases List.mem_append.1 mem with earlier | last
      · rw [List.getElem?_append_left (List.getElem?_eq_some_iff.1 (given e earlier)).1]
        exact given e earlier
      · rw [List.mem_singleton.1 last, ← count]
        exact List.getElem?_concat_length
  | @refused there log s s' ret params failure history refused ih =>
    cases made : Signature.make ret params with
    | error =>
      cases (Session.makeInterned_of_error made).symm.trans refused
      exact ih
    | ok => cases (Session.makeInterned_of_ok made).symm.trans refused
  | @intern there log s s' w c history present done ih =>
    obtain ⟨⟨p, found, reflects⟩, count, given⟩ := ih
    cases (Session.intern_eq w).symm.trans done
    obtain ⟨gave, next⟩ := reflects.intern w
    rw [Session.pool_of_getElem? found, gave]
    refine ⟨⟨_, Session.getElem?_setPool found _, next⟩, count, fun e mem => ?_⟩
    rcases List.mem_append.1 mem with earlier | last
    · exact given e earlier
    · rw [List.mem_singleton.1 last]
      exact present
  | clear history ih =>
    obtain ⟨⟨p, found, reflects⟩, count, -⟩ := ih
    rw [Session.pool_of_getElem? found]
    exact ⟨⟨_, Session.getElem?_setPool found _, reflects.clear⟩, count, List.forall_mem_nil _⟩
  | elsewhere history same count ih =>
    obtain ⟨⟨p, found, reflects⟩, -, given⟩ := ih
    refine ⟨⟨p, same.trans found, reflects⟩, count, fun e mem => ?_⟩
    rw [List.getElem?_append_left (List.getElem?_eq_some_iff.1 (given e mem)).1]
    exact given e mem

/-- A pool is canonical. In every history of a pool, under every hash that equal signatures agree
in, what was given is an instance that is there, has a signature equal to the one asked for, and is
the first one that was asked for since the pool was cleared; of any two requests since then, both
got one instance exactly if their signatures are equal. The next request, of an instance or of a
signature to be made, is served likewise: it gets what the first request of an equal signature got,
and if there was none its own instance. The pool counts the distinct signatures. A signature that
cannot be made is refused without a change, and a cleared pool was asked for nothing. -/
theorem interning_canonical (respects : ∀ s t : Signature, (s == t) = true → hash s = hash t)
    (history : PoolHistory hash index there log s) :
    (∀ e ∈ log, there[e.2.id]? = some e.2.signature ∧ (e.2.signature == e.1.signature) = true ∧
      log.first? e.1.signature = some e.2) ∧
    (∀ e ∈ log, ∀ f ∈ log,
      (e.2.same f.2 = true ↔ (e.1.signature == f.1.signature) = true) ∧
        (e.2.same f.2 = true → e.2 = f.2)) ∧
    (s.pool index).size = (log.map (·.1.signature)).eraseDups.length ∧
    (∀ w, there[w.id]? = some w.signature → ∃ s', s.intern index w = (log.canonical w, s') ∧
      PoolHistory hash index there (log ++ [(w, log.canonical w)]) s') ∧
    (∀ ret params signature, Signature.make ret params = .ok signature →
      ∃ s', s.makeInterned index ret params =
          (.ok (log.canonical ⟨there.length, ⟨ret, params⟩⟩), s') ∧
        PoolHistory hash index (there ++ [⟨ret, params⟩])
          (log ++ [(⟨there.length, ⟨ret, params⟩⟩,
            log.canonical ⟨there.length, ⟨ret, params⟩⟩)]) s') ∧
    (∀ ret params failure, Signature.make ret params = .error failure →
      s.makeInterned index ret params = (.error failure, s)) ∧
    PoolHistory hash index there [] (s.setPool index (s.pool index).clear) := by
  obtain ⟨⟨p, found, reflects⟩, count, given⟩ := history.reflects respects
  have pool := Session.pool_of_getElem? found
  have present : ∀ e ∈ log, there[e.2.id]? = some e.2.signature ∧
      (e.2.signature == e.1.signature) = true := fun e mem => by
    obtain ⟨asked, alike⟩ := Log.mem_of_first? (reflects.gave e mem)
    obtain ⟨first, mem, same⟩ := List.mem_map.1 asked
    exact ⟨same ▸ given first mem, alike⟩
  refine ⟨fun e mem => ⟨(present e mem).1, (present e mem).2, reflects.gave e mem⟩,
    fun e he f hf => ?_, by rw [pool, reflects.size], fun w known => ?_,
    fun ret params signature made => ?_, fun ret params failure => Session.makeInterned_of_error,
    history.clear⟩
  · obtain ⟨thereE, alikeE⟩ := present e he
    obtain ⟨thereF, alikeF⟩ := present f hf
    have equal : (e.1.signature == f.1.signature) = true → e.2 = f.2 := fun alike => by
      have first := reflects.gave e he
      rw [Log.first?_congr alike, reflects.gave f hf] at first
      exact (Option.some.inj first).symm
    have alike : e.2.same f.2 = true → (e.1.signature == f.1.signature) = true := fun same => by
      have number : e.2.id = f.2.id := eq_of_beq same
      rw [number, thereF] at thereE
      rw [← Signature.beq_congr alikeE, ← Option.some.inj thereE]
      exact alikeF
    refine ⟨⟨alike, fun h => ?_⟩, fun same => equal (alike same)⟩
    rw [equal h]
    exact BEq.rfl
  · have done := @Session.intern_eq index s w
    rw [pool, (reflects.intern w).1] at done
    exact ⟨_, done, history.intern known done⟩
  · obtain ⟨rfl, -⟩ := Signature.make_eq_ok_iff.1 made
    have done := @Session.makeInterned_of_ok index s _ _ _ made
    rw [pool, (reflects.intern _).1, ← count] at done
    exact ⟨_, done, history.make done⟩

/-- All signatures lie in one bucket; of three that are made, the first and the last are equal. -/
theorem interning_canonical_colliding :
    ∃ (s : Session) (a b : SharedSignature) (log : Log),
      PoolHistory (fun _ => 0) 0 [⟨.int, []⟩, ⟨.bool, []⟩, ⟨.int, []⟩] log s ∧
      log.map (·.2) = [a, b, a] ∧ a.same b = false ∧ (s.pool 0).size = 2 := by
  let start : Session := { Session.empty with pools := #[.hashedBy fun _ => 0] }
  have history : PoolHistory (fun _ => 0) 0 [] [] start := .start rfl rfl
  have respects : ∀ s t : Signature, (s == t) = true → (0 : UInt64) = 0 := fun _ _ _ => rfl
  obtain ⟨s₁, -, first⟩ := (interning_canonical respects history).2.2.2.2.1 .int [] _ rfl
  obtain ⟨s₂, -, second⟩ := (interning_canonical respects first).2.2.2.2.1 .bool [] _ rfl
  obtain ⟨s₃, -, third⟩ := (interning_canonical respects second).2.2.2.2.1 .int [] _ rfl
  exact ⟨s₃, ⟨0, ⟨.int, []⟩⟩, ⟨1, ⟨.bool, []⟩⟩, _, third, rfl, rfl,
    (interning_canonical respects third).2.2.1.trans rfl⟩

end Sessions
end TypedHandles
