import TypedHandles.Proofs.Building
import TypedHandles.Machine.Run

/-!
What every state of the machine promises of the things at hand, and the computations that keep it.

`State.Sound` is the invariant. `Exec.Agree` relates two computations that do the same from every
sound state and leave a sound one; a computation that agrees with itself keeps the invariant. Two
computations are needed to tell a machine from the same machine under a watch.
-/
namespace TypedHandles

variable {F : ClassLibrary} {K K' : Known}

/-- A registry of members over given classes. -/
structure Registry.Sound (F : ClassLibrary) (r : Registry) : Prop where
  statics : ∀ e ∈ r.statics, e.2.signature.Valid F.Has
  classes : ∀ e ∈ r.classes, F.Has e.2

/-- A cache of handles at hand. -/
structure SharedHandles.Sound (K : Known) (c : SharedHandles) : Prop where
  constants : ∀ e ∈ c.constants, K (.handle e.2)
  identities : ∀ e ∈ c.identities, K (.handle e.2)

/-- What a state promises of the things at hand. -/
structure State.Sound (F : ClassLibrary) (K : Known) (s : State) : Prop where
  knowledge : Knowledge F K
  handles : s.handles.Sound K
  site_inside : ∀ c, K (.callSite c) → c.id < s.sites.size
  site_unique : ∀ c d, K (.callSite c) → K (.callSite d) → c.id = d.id →
    c.signature = d.signature
  /-- A site at hand holds a target of its own signature. -/
  target : ∀ c h, K (.callSite c) → s.target? c = some h →
    K (.handle h) ∧ h.signature = c.signature
  fields : ∀ o, ∀ v ∈ s.fields o, v.MadeOf F K
  registries : ∀ (i : Nat) (r : Registry), s.registries[i]? = some r → r.Sound F
  caches : ∀ (i : Nat) (c : SharedHandles), s.caches[i]? = some c → c.Sound K
  links : ∀ (i : Nat) (table : LinkTable), s.linkers[i]? = some table →
    ∀ e ∈ table, K (.callSite e.2)

/-- A failure that throws nothing but a throwable at hand. -/
def Failure.MadeOf (K : Known) (f : Failure) : Prop :=
  ∀ t, f.thrown? = some t → K (.throwable t)

/-- A halt that reports no failure but one of the kind above. -/
def Halt.MadeOf (K : Known) : Halt → Prop
  | .failed f => f.MadeOf K
  | .stuck | .exhausted => True

theorem Halt.madeOf_of_isStatic {e : Halt} (h : e.IsStatic) : e.MadeOf K := by
  cases e with
  | failed f =>
    intro t thrown
    rw [Failure.thrown?_of_isStatic h] at thrown
    cases thrown
  | stuck | exhausted => trivial

/-- Two computations do the same from every sound state. They leave a sound state with no less at
hand, and what they return is as `Q` says. -/
def Exec.Agree {α : Type} (F : ClassLibrary) (K : Known) (x y : Exec α) (Q : Known → α → Prop) :
    Prop :=
  ∀ s : State, s.Sound F K → x s = y s ∧
    ∃ K', K.Grows K' ∧ (x s).2.Sound F K' ∧ Ends (Halt.MadeOf K') (Q K') (x s).1

/-- A computation that keeps states sound. -/
abbrev Exec.Safe {α : Type} (F : ClassLibrary) (K : Known) (x : Exec α) (Q : Known → α → Prop) :
    Prop :=
  Exec.Agree F K x x Q

namespace Exec

variable {α β : Type} {P Q : Known → α → Prop} {R : Known → β → Prop} {x y : Exec α}

namespace Agree

theorem pure {a : α} (h : Q K a) : Agree F K (Pure.pure a) (Pure.pure a) Q :=
  fun _ sound => ⟨rfl, K, fun _ h => h, sound, h⟩

theorem halt {e : Halt} (h : e.MadeOf K) : Agree F K (throw e) (throw e) Q :=
  fun _ sound => ⟨rfl, K, fun _ h => h, sound, h⟩

theorem bind {f g : α → Exec β} (hx : Agree F K x y P)
    (hf : ∀ K' a, K.Grows K' → Knowledge F K' → P K' a → Agree F K' (f a) (g a) R) :
    Agree F K (x >>= f) (y >>= g) R := by
  intro s sound
  obtain ⟨same, K₁, grows₁, sound₁, ends₁⟩ := hx s sound
  cases result : x s with
  | mk outcome t =>
    rw [result] at same sound₁ ends₁
    cases outcome with
    | error e =>
      rw [bind_of_error result, bind_of_error same.symm]
      exact ⟨rfl, K₁, grows₁, sound₁, ends₁⟩
    | ok a =>
      rw [bind_of_ok result, bind_of_ok same.symm]
      obtain ⟨same₂, K₂, grows₂, rest⟩ := hf K₁ a grows₁ sound₁.knowledge ends₁ t sound₁
      exact ⟨same₂, K₂, grows₁.trans grows₂, rest⟩

/-- What is returned is known to be more, by what is at hand then. -/
theorem impOfKnowledge (hx : Agree F K x y P)
    (weaker : ∀ K' a, K.Grows K' → Knowledge F K' → P K' a → Q K' a) : Agree F K x y Q := by
  intro s sound
  obtain ⟨same, K', grows, sound', ends⟩ := hx s sound
  exact ⟨same, K', grows, sound', ends.imp fun a => weaker K' a grows sound'.knowledge⟩

theorem imp (hx : Agree F K x y P) (weaker : ∀ K' a, K.Grows K' → P K' a → Q K' a) :
    Agree F K x y Q :=
  hx.impOfKnowledge fun K' a grows _ => weaker K' a grows

/-- What is at hand is typed, whatever is done with it. -/
theorem ofKnowledge (h : Knowledge F K → Agree F K x y Q) : Agree F K x y Q :=
  fun s sound => h sound.knowledge s sound

/-- A failure is handed on as a result, and nothing but what was at hand is thrown by it. -/
theorem attempt (hx : Agree F K x y P) :
    Agree F K x.attempt y.attempt fun K' answer =>
      Ends (Failure.MadeOf K') (P K') answer := by
  intro s sound
  obtain ⟨same, K', grows, sound', ends⟩ := hx s sound
  simp only [Exec.attempt, ← same]
  cases result : x s with
  | mk outcome t =>
    rw [result] at sound' ends
    match outcome with
    | .ok a => exact ⟨trivial, K', grows, sound', ends⟩
    | .error (.failed f) => exact ⟨trivial, K', grows, sound', ends⟩
    | .error .stuck => exact ⟨trivial, K', grows, sound', ends⟩
    | .error .exhausted => exact ⟨trivial, K', grows, sound', ends⟩

/-- A computation that changes nothing. -/
theorem ofChecked {x : Checked α} (h : Ends (Halt.MadeOf K) (Q K) x) :
    Safe F K (Exec.ofChecked x) Q :=
  fun _ sound => ⟨rfl, K, fun _ h => h, sound, h⟩

theorem refuse {failure : Failure} (h : failure.MadeOf K) :
    Safe F K (Exec.refuse failure : Exec α) Q :=
  ofChecked h

theorem refuseStatic {failure : Failure} (h : failure.isStatic = true) :
    Safe F K (Exec.refuse failure : Exec α) Q :=
  refuse (Halt.madeOf_of_isStatic (e := .failed failure) h)

theorem ofExcept {x : Except Failure α} (h : Ends (Failure.MadeOf K) (Q K) x) :
    Safe F K (Exec.ofExcept x) Q := by
  cases x with
  | ok a => exact ofChecked h
  | error f => exact ofChecked h

/-- A computation without state that fails for static reasons only, and what follows it. -/
theorem bindExcept {x : Except Failure α} {C : α → Prop} {f g : α → Exec β}
    (hx : Ends (·.isStatic = true) C x) (hf : ∀ a, C a → Agree F K (f a) (g a) R) :
    Agree F K (Exec.ofExcept x >>= f) (Exec.ofExcept x >>= g) R := by
  intro s sound
  cases x with
  | ok a => exact hf a hx s sound
  | error failure =>
    exact ⟨rfl, K, fun _ h => h, sound, Halt.madeOf_of_isStatic (e := .failed failure) hx⟩

theorem ofOption {x : Option α} (h : ∀ a, x = some a → Q K a) :
    Safe F K (Exec.ofOption x) Q := by
  cases x with
  | some a => exact ofChecked (h a rfl)
  | none => exact ofChecked trivial

/-- A computation that reads the state. -/
theorem get : Safe F K (MonadState.get : Exec State) fun K' s => s.Sound F K' :=
  fun _ sound => ⟨rfl, K, fun _ h => h, sound, sound⟩

/-- A change of the state that keeps it sound for what is at hand. -/
theorem change {f : State → State} (h : ∀ s : State, s.Sound F K → (f s).Sound F K) :
    Safe F K (modify f : Exec Unit) fun _ _ => True :=
  fun s sound => ⟨rfl, K, fun _ h => h, h s sound, trivial⟩

end Agree
end Exec

/-! Things that come to hand. -/

/-- Nothing changes for the state when neither handles nor sites come to hand. -/
theorem State.Sound.grow {s : State} (sound : s.Sound F K) (grows : K.Grows K')
    (knowledge : Knowledge F K') (handles : ∀ h, K' (.handle h) → K (.handle h))
    (sites : ∀ c, K' (.callSite c) → K (.callSite c)) : s.Sound F K' where
  knowledge := knowledge
  handles := {
    inside := fun h known => sound.handles.inside h (handles h known)
    unique := fun h g known known' =>
      sound.handles.unique h g (handles h known) (handles g known')
    adapter := fun h a known found => by
      obtain ⟨adapter, rest⟩ := sound.handles.adapter h a (handles h known) found
      exact ⟨grows _ adapter, rest⟩ }
  site_inside := fun c known => sound.site_inside c (sites c known)
  site_unique := fun c d known known' => sound.site_unique c d (sites c known) (sites d known')
  target := fun c h known found => by
    obtain ⟨target, same⟩ := sound.target c h (sites c known) found
    exact ⟨grows _ target, same⟩
  fields := fun o v mem => (sound.fields o v mem).mono grows
  registries := sound.registries
  caches := fun i c found => ⟨fun e mem => grows _ ((sound.caches i c found).constants e mem),
    fun e mem => grows _ ((sound.caches i c found).identities e mem)⟩
  links := fun i table found e mem => grows _ (sound.links i table found e mem)

/-- Handles come to hand with a table that knows them. -/
theorem State.Sound.growHandles {s : State} {t : HandleTable} (sound : s.Sound F K)
    (grows : K.GrowsByHandles K') (knowledge : Knowledge F K') (handles : t.Sound K') :
    { s with handles := t }.Sound F K' := by
  have sites : ∀ c, K' (.callSite c) → K (.callSite c) := by
    intro c known
    rcases grows.handle _ known with known | ⟨h, eq⟩
    · exact known
    · cases eq
  exact {
    knowledge := knowledge
    handles := handles
    site_inside := fun c known => sound.site_inside c (sites c known)
    site_unique := fun c d known known' => sound.site_unique c d (sites c known) (sites d known')
    target := fun c h known found => by
      obtain ⟨target, same⟩ := sound.target c h (sites c known) found
      exact ⟨grows.grows _ target, same⟩
    fields := fun o v mem => (sound.fields o v mem).mono grows.grows
    registries := sound.registries
    caches := fun i c found =>
      ⟨fun e mem => grows.grows _ ((sound.caches i c found).constants e mem),
        fun e mem => grows.grows _ ((sound.caches i c found).identities e mem)⟩
    links := fun i table found e mem => grows.grows _ (sound.links i table found e mem) }

theorem Exec.ofBuild_safe {α : Type} {x : Build α} {Q : Known → α → Prop}
    (h : Build.Safe F K x Q) : Exec.Safe F K (Exec.ofBuild x) Q := by
  intro s sound
  obtain ⟨K', grows, knowledge, handles, ends⟩ := h s.handles sound.knowledge sound.handles
  refine ⟨rfl, K', grows.grows, sound.growHandles grows knowledge handles, ?_⟩
  show Ends (Halt.MadeOf K') (Q K') (x s.handles).1
  cases result : (x s.handles).1 with
  | ok a => exact ends.of_eq_ok result
  | error e => exact Halt.madeOf_of_isStatic (ends.of_eq_error result)

/-- One more thing is at hand. -/
def Known.add (K : Known) (v : Value) : Known := fun w => K w ∨ w = v

theorem Known.grows_add (K : Known) (v : Value) : K.Grows (K.add v) := fun _ h => .inl h

/-- A thing that is no handle comes to hand, if it is typed. -/
theorem Knowledge.add {v : Value} (knowledge : Knowledge F K) (handle : ∀ h, v ≠ .handle h)
    (object : ∀ o, v = .object o → F.Has o.cls)
    (throwable : ∀ t, v = .throwable t → F.Has t.cls ∧ t.refType.isThrowable = true)
    (site : ∀ c, v = .callSite c → c.signature.Valid F.Has) : Knowledge F (K.add v) where
  handle h known := by
    rcases known with known | eq
    · exact (knowledge.handle h known).mono (K.grows_add v)
    · exact absurd eq.symm (handle h)
  object o known := known.elim (knowledge.object o) fun eq => object o eq.symm
  throwable t known := known.elim (knowledge.throwable t) fun eq => throwable t eq.symm
  site c known := known.elim (knowledge.site c) fun eq => site c eq.symm

theorem newObject_safe {c : ClassDef} {fields : List Value} (has : F.Has c)
    (made : ∀ v ∈ fields, v.MadeOf F K) :
    Exec.Safe F K (newObject c fields) fun K' o => K' (.object o) ∧ o.cls = c := by
  intro s sound
  let new : Value := .object ⟨s.objects.size, c⟩
  have knowledge : Knowledge F (K.add new) :=
    sound.knowledge.add nofun (fun o eq => Value.object.inj eq ▸ has) nofun nofun
  have grown : s.Sound F (K.add new) :=
    sound.grow (K.grows_add new) knowledge (fun h known => known.elim id nofun)
      fun c known => known.elim id nofun
  refine ⟨rfl, K.add new, K.grows_add new, { grown with fields := fun o v mem => ?_ },
    .inr rfl, rfl⟩
  simp only [newObject, State.fields, Array.getElem?_push] at mem
  split at mem
  · exact (made v mem).mono (K.grows_add new)
  · exact grown.fields o v mem

theorem newThrowable_safe {c : ClassDef} {message : String} (has : F.Has c)
    (throwable : (RefType.cls c).isThrowable = true) :
    Exec.Safe F K (newThrowable c message) fun K' t => K' (.throwable t) ∧ t.cls = c := by
  intro s sound
  let new : Value := .throwable ⟨s.suppressed.size, c, message⟩
  have knowledge : Knowledge F (K.add new) :=
    sound.knowledge.add nofun nofun (fun t eq => Value.throwable.inj eq ▸ ⟨has, throwable⟩) nofun
  have grown : s.Sound F (K.add new) :=
    sound.grow (K.grows_add new) knowledge (fun h known => known.elim id nofun)
      fun c known => known.elim id nofun
  exact ⟨rfl, K.add new, K.grows_add new, { grown with }, .inr rfl, rfl⟩

theorem newSite_safe {kind : SiteKind} {signature : Signature} {target : Option Handle}
    (valid : signature.Valid F.Has)
    (linked : ∀ h, target = some h → K (.handle h) ∧ h.signature = signature) :
    Exec.Safe F K (newSite kind signature target) fun K' c =>
      K' (.callSite c) ∧ c.signature = signature := by
  intro s sound
  let new : CallSite := ⟨s.sites.size, kind, signature⟩
  let K' := K.add (.callSite new)
  have grows : K.Grows K' := K.grows_add _
  have cases : ∀ c, K' (.callSite c) → K (.callSite c) ∨ c = new :=
    fun c known => known.imp_right fun eq => by cases eq; rfl
  have knowledge : Knowledge F K' :=
    sound.knowledge.add nofun nofun nofun fun c eq => by cases eq; exact valid
  refine ⟨rfl, K', grows, ?_, .inr rfl, rfl⟩
  show State.Sound F K' { s with sites := s.sites.push ⟨target, 0⟩ }
  refine {
    knowledge := knowledge
    handles := {
      inside := fun h known => sound.handles.inside h (known.elim id nofun)
      unique := fun h g hh hg => sound.handles.unique h g (hh.elim id nofun) (hg.elim id nofun)
      adapter := fun h a known found => by
        obtain ⟨adapter, rest⟩ := sound.handles.adapter h a (known.elim id nofun) found
        exact ⟨grows _ adapter, rest⟩ }
    site_inside := fun c known => ?_
    site_unique := fun c d known known' ids => ?_
    target := fun c h known found => ?_
    fields := fun o v mem => (sound.fields o v mem).mono grows
    registries := sound.registries
    caches := fun i c found => ⟨fun e mem => grows _ ((sound.caches i c found).constants e mem),
      fun e mem => grows _ ((sound.caches i c found).identities e mem)⟩
    links := fun i table found e mem => grows _ (sound.links i table found e mem) }
  · rw [Array.size_push]
    rcases cases c known with known | rfl
    · exact Nat.lt_succ_of_lt (sound.site_inside c known)
    · exact Nat.lt_succ_self _
  · rcases cases c known with known | rfl <;> rcases cases d known' with known' | rfl
    · exact sound.site_unique c d known known' ids
    · exact absurd ids (Nat.ne_of_lt (sound.site_inside c known))
    · exact absurd ids.symm (Nat.ne_of_lt (sound.site_inside d known'))
    · rfl
  · simp only [State.target?, State.cell?, Array.getElem?_push] at found
    rcases cases c known with known | rfl
    · rw [if_neg (Nat.ne_of_lt (sound.site_inside c known))] at found
      obtain ⟨target, same⟩ := sound.target c h known found
      exact ⟨grows _ target, same⟩
    · rw [if_pos rfl] at found
      obtain ⟨target, same⟩ := linked h found
      exact ⟨grows _ target, same⟩

end TypedHandles
