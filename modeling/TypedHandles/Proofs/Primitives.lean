import TypedHandles.Proofs.Invariant

/-!
The operations on objects, throwables, call sites, registries, caches and linkers keep every state
sound, and what they answer is at hand.
-/
namespace TypedHandles

variable {F : ClassLibrary} {K : Known}

theorem record_safe (e : Event) : Exec.Safe F K (Exec.record e) fun _ _ => True :=
  Exec.Agree.change fun _ sound => { sound with }

/-! Objects and throwables. -/

theorem ObjectRef.setField_safe {o : ObjectRef} {index : Nat} {v : Value} (made : v.MadeOf F K) :
    Exec.Safe F K (o.setField index v) fun _ _ => True := by
  intro s sound
  refine ⟨rfl, K, fun _ h => h, ?_, ?_⟩ <;> unfold setField <;> dsimp only <;> split
  · refine { sound with fields := fun other w mem => ?_ }
    simp only [State.fields, Array.getElem?_setIfInBounds] at mem
    split at mem
    · split at mem
      · rcases List.mem_or_eq_of_mem_set mem with mem | rfl
        · exact sound.fields o w mem
        · exact made
      · cases mem
    · exact sound.fields other w mem
  · exact sound
  · trivial
  · trivial

theorem field?_madeOf {s : State} (sound : s.Sound F K) {o : ObjectRef} {index : Nat} {v : Value}
    (found : s.field? o index = some v) : v.MadeOf F K :=
  sound.fields o v (List.mem_of_getElem? found)

theorem Throwable.suppress_safe (t other : Throwable) :
    Exec.Safe F K (t.suppress other) fun _ _ => True :=
  Exec.Agree.change fun _ sound => { sound with }

theorem builtin_isThrowable {c : ClassDef} (h : c ∈ ClassDef.builtins) :
    (RefType.cls c).isThrowable = true := by
  revert h c
  decide

/-- The library throws throwables of its own classes. -/
theorem throwNew_safe {α : Type} {c : ClassDef} {message : String} {Q : Known → α → Prop}
    (h : c ∈ ClassDef.builtins) : Exec.Safe F K (throwNew c message) Q := by
  refine (newThrowable_safe (F.builtin_has c h) (builtin_isThrowable h)).bind
    fun K₁ t _ _ made => Exec.Agree.refuse fun u thrown => ?_
  cases thrown
  exact made.1

theorem asThrowable_safe {f : Failure} (made : f.MadeOf K) :
    Exec.Safe F K (asThrowable f) fun K' t => K' (.throwable t) := by
  unfold asThrowable
  split
  · exact .pure (made _ rfl)
  · have builtin : ClassDef.invocationFailure ∈ ClassDef.builtins := by simp [ClassDef.builtins]
    exact (newThrowable_safe (F.builtin_has _ builtin) (builtin_isThrowable builtin)).imp
      fun _ _ _ made => made.1

/-! Call sites. -/

namespace CallSite

theorem target_safe {site : CallSite} (known : K (.callSite site)) :
    Exec.Safe F K site.target fun K' h => K' (.handle h) ∧ h.signature = site.signature := by
  unfold target
  refine Exec.Agree.get.bind fun K₁ s grows _ sound => ?_
  split
  · next h found => exact .pure (sound.target site h (grows _ known) found)
  · exact .refuseStatic rfl

theorem store_safe {site : CallSite} {target : Handle} (known : K (.callSite site))
    (targetKnown : K (.handle target)) (same : target.signature = site.signature) :
    Exec.Safe F K (site.store target) fun _ _ => True := by
  unfold store
  refine Exec.Agree.bind (P := fun _ _ => True) (Exec.Agree.change fun s sound => { sound with
    site_inside := fun c hc => ?_
    target := fun c h hc found => ?_ }) fun _ _ _ _ _ => record_safe _
  · rw [Array.size_modify]
    exact sound.site_inside c hc
  · simp only [State.target?, State.cell?, Array.getElem?_modify] at found
    split at found
    · next ids =>
      obtain ⟨cell, hcell, hstored⟩ := Option.bind_eq_some_iff.1 found
      obtain ⟨old, -, rfl⟩ := Option.map_eq_some_iff.1 hcell
      cases hstored
      exact ⟨targetKnown, same.trans (sound.site_unique site c known hc ids)⟩
    · exact sound.target c h hc found

theorem checkRetarget_ends (site : CallSite) (target : Handle) :
    Ends (·.isStatic = true) (fun _ => (target.signature == site.signature) = true)
      (site.checkRetarget target) := by
  unfold checkRetarget
  split
  · rfl
  · split
    · rfl
    · next same => simpa [Ends, bne] using same

theorem setTargetFenced_safe {site : CallSite} {target : Handle} (known : K (.callSite site))
    (targetKnown : K (.handle target)) :
    Exec.Safe F K (site.setTargetFenced target) fun _ _ => True := by
  refine .ofKnowledge fun knowledge => ?_
  unfold setTargetFenced
  refine Exec.Agree.bindExcept (site.checkRetarget_ends target) fun _ same => ?_
  have eq := (Signature.beq_iff (knowledge.handle target targetKnown).valid
    (knowledge.site site known)).1 same
  exact store_safe known targetKnown eq

theorem setTargetPlain_safe {site : CallSite} {target : Handle} (known : K (.callSite site))
    (targetKnown : K (.handle target)) :
    Exec.Safe F K (site.setTargetPlain target) fun _ _ => True := by
  unfold setTargetPlain
  split
  · exact setTargetFenced_safe known targetKnown
  · exact setTargetFenced_safe known targetKnown

theorem setTarget_safe {site : CallSite} {target : Handle} (known : K (.callSite site))
    (targetKnown : K (.handle target)) :
    Exec.Safe F K (site.setTarget target) fun _ _ => True := by
  unfold setTarget
  split
  · exact setTargetFenced_safe known targetKnown
  · exact setTargetPlain_safe known targetKnown
  · exact setTargetPlain_safe known targetKnown

end CallSite

/-- What a lookup finds stands in the list. -/
theorem exists_mem_of_lookup {α β : Type} [BEq α] {l : List (α × β)} {k : α} {b : β}
    (h : l.lookup k = some b) : ∃ e ∈ l, e.2 = b := by
  rw [List.lookup_eq_findSome?] at h
  obtain ⟨e, mem, found⟩ := List.exists_of_findSome?_eq_some h
  split at found
  · cases found
    exact ⟨e, mem, rfl⟩
  · cases found

/-! Caches. -/

namespace SharedHandles

theorem constant_safe {c : SharedHandles} (sound : c.Sound K) {kind : Kind} {v : Value}
    (given : kind.Over F.Has) (made : v.MadeOf F K) :
    Build.Safe F K (c.constant kind v) fun K' r => K' (.handle r.1) ∧ r.2.Sound K' := by
  unfold constant
  refine .bindChecked (Ends.ofExcept (Value.coerce_ends v kind)) fun w fitted => ?_
  have made := Value.madeOf_of_coerce made fitted
  dsimp only
  split
  · refine (Handle.constant_safe given made).bind fun K₁ h grows _ known => .pure ⟨known, ?_⟩
    exact ⟨fun e mem => grows _ (sound.constants e mem),
      fun e mem => grows _ (sound.identities e mem)⟩
  · split
    · next shared found =>
      obtain ⟨e, mem, rfl⟩ := exists_mem_of_lookup found
      exact .pure ⟨sound.constants e mem, sound⟩
    · refine (Handle.constant_safe given made).bind fun K₁ h grows _ known => .pure ⟨known, ?_⟩
      exact ⟨List.forall_mem_cons.2 ⟨known, fun e mem => grows _ (sound.constants e mem)⟩,
        fun e mem => grows _ (sound.identities e mem)⟩

theorem identity_safe {c : SharedHandles} (sound : c.Sound K) {kind : Kind}
    (given : kind.Over F.Has) :
    Build.Safe F K (c.identity kind) fun K' r => K' (.handle r.1) ∧ r.2.Sound K' := by
  unfold identity
  split
  · next shared found =>
    obtain ⟨e, mem, rfl⟩ := exists_mem_of_lookup found
    exact .pure ⟨sound.identities e mem, sound⟩
  · refine (Build.accept_safe ((Blueprint.identity_ends kind).imp fun _ typed =>
      typed.2 F K given)).bind fun K₁ h grows _ known => .pure ⟨known, ?_⟩
    exact ⟨fun e mem => grows _ (sound.constants e mem),
      List.forall_mem_cons.2 ⟨known, fun e mem => grows _ (sound.identities e mem)⟩⟩

end SharedHandles

/-- Replacing a cache by a sound one. -/
theorem storeCache_safe {cache : Nat} {updated : SharedHandles} (sound : updated.Sound K) :
    Exec.Safe F K (modify fun s => { s with caches := s.caches.setIfInBounds cache updated })
      fun _ _ => True := by
  refine Exec.Agree.change fun s whole => { whole with caches := fun i c found => ?_ }
  rw [Array.getElem?_setIfInBounds] at found
  split at found
  · split at found
    · cases found
      exact sound
    · cases found
  · exact whole.caches i c found

theorem withCache_safe {cache : Nat} {f : SharedHandles → Build (Handle × SharedHandles)}
    (h : ∀ K' c, K.Grows K' → c.Sound K' →
      Build.Safe F K' (f c) fun K'' r => K'' (.handle r.1) ∧ r.2.Sound K'') :
    Exec.Safe F K (withCache cache f) fun K' a => K' (.handle a) := by
  unfold withCache
  refine Exec.Agree.get.bind fun K₁ s grows₁ _ sound => ?_
  refine Exec.Agree.bind (P := fun K' c => c.Sound K')
    (.ofOption fun c found => sound.caches cache c found) fun K₂ c grows₂ _ sound => ?_
  refine (Exec.ofBuild_safe (h K₂ c (grows₁.trans grows₂) sound)).bind fun K₃ r _ _ made => ?_
  refine (storeCache_safe made.2).bind fun K₄ _ grows _ _ => ?_
  exact .pure (grows _ made.1)

theorem cachedConstant_safe {cache : Nat} {kind : Kind} {v : Value} (given : kind.Over F.Has)
    (made : v.MadeOf F K) :
    Exec.Safe F K (cachedConstant cache kind v) fun K' a => K' (.handle a) :=
  withCache_safe fun _ _ grows sound =>
    SharedHandles.constant_safe sound given (made.mono grows)

theorem cachedIdentity_safe {cache : Nat} {kind : Kind} (given : kind.Over F.Has) :
    Exec.Safe F K (cachedIdentity cache kind) fun K' a => K' (.handle a) :=
  withCache_safe fun _ _ _ sound => SharedHandles.identity_safe sound given

theorem clearCache_safe (cache : Nat) : Exec.Safe F K (clearCache cache) fun _ _ => True :=
  storeCache_safe ⟨List.forall_mem_nil _, List.forall_mem_nil _⟩

/-! Registries and lookups. -/

theorem registerStatic_safe {registry : Nat} {owner name : String} {member : StaticMember}
    (valid : member.signature.Valid F.Has) :
    Exec.Safe F K (registerStatic registry owner name member) fun _ _ => True := by
  refine Exec.Agree.change fun s sound => { sound with registries := fun i r found => ?_ }
  rw [Array.getElem?_modify] at found
  split at found
  · obtain ⟨old, hold, rfl⟩ := Option.map_eq_some_iff.1 found
    have before := sound.registries _ _ hold
    exact ⟨List.forall_mem_cons.2
      ⟨valid, fun e mem => before.statics e (List.mem_of_mem_filter mem)⟩, before.classes⟩
  · exact sound.registries i r found

theorem registerClass_safe {registry : Nat} {c : ClassDef} (has : F.Has c) :
    Exec.Safe F K (registerClass registry c) fun _ _ => True := by
  refine Exec.Agree.change fun s sound => { sound with registries := fun i r found => ?_ }
  rw [Array.getElem?_modify] at found
  split at found
  · obtain ⟨old, hold, rfl⟩ := Option.map_eq_some_iff.1 found
    have before := sound.registries _ _ hold
    exact ⟨before.statics,
      List.forall_mem_cons.2 ⟨has, fun e mem => before.classes e (List.mem_of_mem_filter mem)⟩⟩
  · exact sound.registries i r found

/-- The method of a name is declared by a class of the library. -/
theorem ClassDef.findMethod?_declared {c : ClassDef} {name : String} {m : Method} (has : F.Has c)
    (found : c.findMethod? name = some m) : ∃ d, F.Has d ∧ ∃ e ∈ d.methods, e.2 = m := by
  have every : ∀ t : RefType, ∀ c, t = .cls c → F.Has c → c.findMethod? name = some m →
      ∃ d, F.Has d ∧ ∃ e ∈ d.methods, e.2 = m := by
    intro t
    induction t using RefType.below_induction with
    | step t _ parent =>
      intro c ht has found
      obtain ⟨className, superclass, isFinal, fields, methods⟩ := c
      unfold findMethod? at found
      split at found
      · next method declared =>
        cases found
        exact ⟨_, has, exists_mem_of_lookup declared⟩
      · split at found
        · next above =>
          have given := F.superclass_over has rfl
          exact parent _ (.cls above) ht rfl above rfl (RefType.over_cls.1 given) found
        · cases found
  exact every _ c rfl has found

namespace Registry

theorem checkAccess_ends (isPrivate : Bool) (caller : String) (request : MemberRequest) :
    Ends (·.isStatic = true) (fun _ => True) (checkAccess isPrivate caller request) := by
  unfold checkAccess
  split <;> trivial

theorem owner_ends (r : Registry) (request : MemberRequest) :
    Ends (·.isStatic = true) (fun c => ∃ e ∈ r.classes, e.2 = c) (r.owner request) := by
  unfold owner
  split
  · next c found => exact exists_mem_of_lookup found
  · rfl

theorem field_ends (c : ClassDef) (request : MemberRequest) :
    Ends (·.isStatic = true) (fun kind => ∃ e ∈ c.fields, e.2 = kind) (field c request) := by
  unfold field
  split
  · next name kind found => exact ⟨_, List.mem_of_find?_eq_some found, rfl⟩
  · rfl

/-- A found member may be made a handle of. -/
theorem resolve_ends (r : Registry) (caller : String) (request : MemberRequest) :
    Ends (·.isStatic = true)
      (fun member => ∀ (F : ClassLibrary) (K : Known), r.Sound F →
        member.signature.Valid F.Has ∧ member.action.MadeOf F K)
      (r.resolve caller request) := by
  unfold resolve
  split
  · split
    · rfl
    · next member found =>
      refine (checkAccess_ends _ _ _).bind fun _ _ => ?_
      intro F K sound
      obtain ⟨e, mem, rfl⟩ := exists_mem_of_lookup found
      exact ⟨sound.statics e mem, trivial⟩
  · refine (r.owner_ends request).bind fun c hc => ?_
    split
    · rfl
    · next method found =>
      refine (checkAccess_ends _ _ _).bind fun _ _ => ?_
      refine (Signature.replaceParams_ends _ _ _ _).bind fun s => ?_
      rintro ⟨-, -, eq, wf⟩ F K sound
      obtain ⟨e, mem, rfl⟩ := hc
      have has := sound.classes e mem
      obtain ⟨d, hd, m, declared, rfl⟩ := ClassDef.findMethod?_declared has found
      exact ⟨(F.method_valid hd declared).replaced (by simpa [Kind.ofClass] using has) eq wf,
        trivial⟩
  · refine (r.owner_ends request).bind fun c hc => ?_
    refine (field_ends c request).bind fun kind hkind => ?_
    refine (Signature.make_ends _ _).bind fun s => ?_
    rintro ⟨rfl, wf⟩ F K sound
    obtain ⟨e, mem, rfl⟩ := hc
    obtain ⟨f, declared, rfl⟩ := hkind
    have has := sound.classes e mem
    exact ⟨⟨wf, F.field_over has declared, by simpa [Kind.ofClass] using has⟩, trivial⟩
  · refine (r.owner_ends request).bind fun c hc => ?_
    refine (field_ends c request).bind fun kind hkind => ?_
    refine (Signature.make_ends _ _).bind fun s => ?_
    rintro ⟨rfl, wf⟩ F K sound
    obtain ⟨e, mem, rfl⟩ := hc
    obtain ⟨f, declared, rfl⟩ := hkind
    have has := sound.classes e mem
    have given := F.field_over has declared
    exact ⟨⟨wf, Kind.over_void, by simpa [Kind.ofClass] using ⟨has, given⟩⟩, trivial⟩
  · refine (r.owner_ends request).bind fun c hc => ?_
    refine (Signature.make_ends _ _).bind fun s => ?_
    rintro ⟨rfl, wf⟩ F K sound
    obtain ⟨e, mem, rfl⟩ := hc
    have has := sound.classes e mem
    refine ⟨⟨wf, by simpa [Kind.ofClass] using has, fun k hk => ?_⟩, has⟩
    obtain ⟨f, declared, rfl⟩ := List.mem_map.1 hk
    exact F.field_over has declared

end Registry

/-- A lookup whose gate throws nothing but what is at hand. -/
def Lookup.MadeOf (K : Known) (l : Lookup) : Prop :=
  ∀ gate, l.gate = some gate → ∀ caller request f, gate caller request = .error f → f.MadeOf K

theorem Failure.MadeOf.mono {K K' : Known} {f : Failure} (grows : K.Grows K') (h : f.MadeOf K) :
    f.MadeOf K' :=
  fun t thrown => grows _ (h t thrown)

namespace Lookup

theorem checkGate_safe {l : Lookup} (made : l.MadeOf K) (request : MemberRequest) :
    Exec.Safe F K (l.checkGate request) fun _ _ => True := by
  unfold checkGate
  split
  · next gate hgate =>
    refine (record_safe _).bind fun K₁ _ grows _ _ => ?_
    refine .ofExcept (Ends.intro (fun f failed => ?_) fun _ _ => trivial)
    exact (made gate hgate _ _ f failed).mono grows
  · exact .pure trivial

theorem find_safe {l : Lookup} (made : l.MadeOf K) (request : MemberRequest) :
    Exec.Safe F K (l.find request) fun K' h => K' (.handle h) := by
  unfold find
  refine (checkGate_safe made request).bind fun K₁ _ _ _ _ => ?_
  refine Exec.Agree.get.bind fun K₂ s _ _ sound => ?_
  refine Exec.Agree.bind (P := fun _ r => r.Sound F)
    (.ofOption fun r found => sound.registries _ r found) fun K₃ r _ _ sound => ?_
  refine .bindExcept (r.resolve_ends _ _) fun member typed => ?_
  have made := typed F K₃ sound
  have handle : Exec.Safe F K₃ (Exec.ofBuild (Blueprint.ofAction member.signature
      member.action).make) fun K' h => K' (.handle h) :=
    Exec.ofBuild_safe ((Blueprint.make_safe (Blueprint.ofAction_typed made.1 made.2)).imp
      fun _ _ _ h => h.1)
  dsimp only
  split
  · split
    · exact .refuseStatic rfl
    · exact handle
  · exact handle

theorem findMember_safe {l : Lookup} (made : l.MadeOf K) (query : MemberQuery) :
    Exec.Safe F K (l.findMember query) fun K' h => K' (.handle h) := by
  unfold findMember
  refine (find_safe made _).bind fun K₁ h _ _ known => ?_
  dsimp only
  split
  · refine .refuseStatic ?_
    cases query <;> rfl
  · exact .pure known

end Lookup

/-! Linkers. -/

/-- A call point whose static arguments are made of what is at hand. -/
structure Descriptor.MadeOf (F : ClassLibrary) (K : Known) (d : Descriptor) : Prop where
  signature : d.signature.Valid F.Has
  staticArgs : ∀ v ∈ d.staticArgs, v.MadeOf F K

namespace Linker

theorem checkSignature_ends (d : Descriptor) (found : Signature) :
    Ends (·.isStatic = true) (fun _ => (found == d.signature) = true) (checkSignature d found) := by
  unfold checkSignature
  split
  · rfl
  · next same => simpa [Ends, bne] using same

theorem accept_safe {l : Linker} {d : Descriptor} {v : Value} (made : v.MadeOf F K) :
    Exec.Safe F K (l.accept d v) fun K' c => K' (.callSite c) := by
  refine .ofKnowledge fun knowledge => ?_
  unfold accept
  split
  · next site =>
    refine .bindExcept (checkSignature_ends _ _) fun _ _ => ?_
    exact .pure (Value.madeOf_callSite_iff.1 made)
  · next h =>
    have known := Value.madeOf_handle_iff.1 made
    split
    · refine .bindExcept (checkSignature_ends _ _) fun _ _ => ?_
      exact (newSite_safe (knowledge.handle h known).valid fun g eq => by
        cases eq
        exact ⟨known, rfl⟩).imp fun _ _ _ made => made.1
    · exact .refuseStatic rfl
  · exact .refuseStatic rfl

/-- What a bootstrap throws is passed on inside a failure of the linker only. -/
theorem thrown?_bootstrapFailure (d : Descriptor) (cause : Failure) :
    (bootstrapFailure d cause).thrown? = none := by
  unfold bootstrapFailure
  split
  · next fatal =>
    obtain ⟨text, rfl⟩ := Failure.isFatal_iff.1 fatal
    rfl
  · rfl

theorem resolve_agree {l : Linker} {d : Descriptor} {x y : Exec Value}
    (hx : Exec.Agree F K x y fun K' v => v.MadeOf F K') :
    Exec.Agree F K (l.resolve d x) (l.resolve d y) fun K' c => K' (.callSite c) := by
  unfold resolve
  refine hx.attempt.bind fun K₁ answer _ _ ends => ?_
  cases answer with
  | ok v => exact accept_safe ends
  | error cause =>
    refine .refuse fun t thrown => ?_
    rw [thrown?_bootstrapFailure] at thrown
    cases thrown

theorem linked?_known {l : Linker} {s : State} (sound : s.Sound F K) {point : UInt64}
    {site : CallSite} (found : l.linked? s point = some site) : K (.callSite site) := by
  unfold linked? table at found
  obtain ⟨e, mem, rfl⟩ := exists_mem_of_lookup found
  cases htable : s.linkers[l.id]? with
  | none =>
    rw [htable] at mem
    cases mem
  | some table =>
    rw [htable] at mem
    exact sound.links _ _ htable e mem

/-- A change of a linker's table to one with sites at hand. -/
theorem changeTable {l : Linker} {s : State} (sound : s.Sound F K) {f : LinkTable → LinkTable}
    (h : ∀ table, (∀ e ∈ table, K (.callSite e.2)) → ∀ e ∈ f table, K (.callSite e.2)) :
    { s with linkers := s.linkers.modify l.id f }.Sound F K := by
  refine { sound with links := fun i table found => ?_ }
  rw [Array.getElem?_modify] at found
  split at found
  · obtain ⟨old, hold, rfl⟩ := Option.map_eq_some_iff.1 found
    exact h old (sound.links _ old hold)
  · exact sound.links i table found

theorem publish_safe {l : Linker} {point : UInt64} {site : CallSite} (known : K (.callSite site)) :
    Exec.Safe F K (l.publish point site) fun K' c => K' (.callSite c) := by
  intro s sound
  unfold publish
  split
  · next published found =>
    exact ⟨rfl, K, fun _ h => h, sound, linked?_known sound found⟩
  · have changed := changeTable (l := l) (f := ((point, site) :: ·)) sound fun table old =>
      List.forall_mem_cons.2 ⟨known, old⟩
    exact ⟨rfl, K, fun _ h => h, { changed with }, known⟩

theorem link_agree {l : Linker} {point : UInt64} {d : Descriptor} {x y : Exec Value}
    (hx : ∀ K', K.Grows K' → Exec.Agree F K' x y fun K'' v => v.MadeOf F K'') :
    Exec.Agree F K (l.link point d x) (l.link point d y) fun K' c => K' (.callSite c) := by
  unfold link
  refine Exec.Agree.get.bind fun K₁ s grows _ sound => ?_
  split
  · next site found => exact .pure (linked?_known sound found)
  · exact (resolve_agree (hx K₁ grows)).bind fun K₂ site _ _ known => publish_safe known

theorem unregister_safe (l : Linker) (point : UInt64) :
    Exec.Safe F K (l.unregister point) fun K' found => ∀ c, found = some c → K' (.callSite c) := by
  intro s sound
  unfold unregister
  split
  · next site found =>
    have changed := changeTable (l := l) (f := (·.filter (·.1 != point))) sound
      fun table old e mem => old e (List.mem_of_mem_filter mem)
    refine ⟨rfl, K, fun _ h => h, { changed with }, fun c same => ?_⟩
    cases same
    exact linked?_known sound found
  · exact ⟨rfl, K, fun _ h => h, sound, nofun⟩

end Linker
end TypedHandles
