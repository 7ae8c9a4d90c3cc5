import TypedHandles.Proofs.Remembering

/-!
Adapters that are taken back. A signature is lifted by moving references up and boxing primitives,
in any of its parameters and in its return; erasing it is one way. A handle may be adapted to every
lift of its signature and the adapter back to the signature, and what comes out does the same as the
handle (`Handle.asType_reverts`).

On the way in an argument is boxed or moved up, and then unboxed or cast down; on the way out the
result goes through the same. No primitive is widened by this, and a cast down to the kind that a
value came from succeeds: all conversions are the identity (`Value.convert_lifted`,
`Value.convert_lowered`).
-/
namespace TypedHandles

variable {F : ClassLibrary} {K : Known}

/-! Kinds and signatures above others. -/

namespace Kind

/-- The second kind is the first, a supertype of a reference, or a supertype of the own wrapper of a
primitive. -/
inductive LiftsTo : Kind → Kind → Prop
  | keep (k : Kind) : LiftsTo k k
  | upcast {s t : RefType} : s.isSubtypeOf t = true → LiftsTo (.ref s) (.ref t)
  | box {p : Prim} {t : RefType} : (RefType.boxed p).isSubtypeOf t = true →
      LiftsTo (.prim p) (.ref t)

variable {k l : Kind}

theorem liftsTo_erase (k : Kind) : k.LiftsTo k.erase := by
  cases k with
  | void | prim => exact .keep _
  | ref t => exact .upcast t.isSubtypeOf_object

theorem erase_ne_void (nonVoid : k ≠ .void) : k.erase ≠ .void := by
  cases k with
  | void => exact absurd rfl nonVoid
  | prim | ref => exact nofun

theorem erase_over (known : k.Over F.Has) : k.erase.Over F.Has := by
  cases k with
  | void | prim => exact known
  | ref => simp [erase, object, RefType.Over]

namespace LiftsTo

theorem isConvertibleTo (lifts : k.LiftsTo l) : k.isConvertibleTo l = true := by
  cases lifts with
  | keep => exact isConvertibleTo_refl k
  | upcast above => simp [Kind.isConvertibleTo, RefType.isRelatedTo, above]
  | box above => simp [Kind.isConvertibleTo, Prim.boxTarget?, above]

/-- What a kind is lifted to converts back: a wrapper is unboxed, a reference is cast down. -/
theorem isConvertibleTo_back (lifts : k.LiftsTo l) : l.isConvertibleTo k = true := by
  cases lifts with
  | keep => exact isConvertibleTo_refl k
  | upcast above => simp [Kind.isConvertibleTo, RefType.isRelatedTo, above]
  | @box p t above =>
    have unboxes : t.canUnboxTo p = true := by
      rcases RefType.boxed_isSubtypeOf_iff.1 above with rfl | rfl | ⟨rfl, numeric⟩
      · exact p.widensTo_refl
      · rfl
      · exact numeric
    simp [Kind.isConvertibleTo, unboxes]

end LiftsTo
end Kind

namespace Signature

variable {s t : Signature}

/-- Some kinds of a signature are lifted, parameters and return alike. -/
structure LiftsTo (s t : Signature) : Prop where
  ret : s.ret.LiftsTo t.ret
  params : List.Forall₂ Kind.LiftsTo s.params t.params

theorem liftsTo_erase (s : Signature) : s.LiftsTo s.erase :=
  ⟨s.ret.liftsTo_erase, List.forall₂_map_right_iff.2
    (List.forall₂_same.2 fun k _ => k.liftsTo_erase)⟩

theorem Valid.erase (valid : s.Valid F.Has) : s.erase.Valid F.Has := by
  refine ⟨⟨?_, fun k mem => ?_⟩, Kind.erase_over valid.ret_over, fun k mem => ?_⟩
  · rw [Signature.erase, List.length_map]
    exact valid.wellFormed.arity_le
  · obtain ⟨own, known, rfl⟩ := List.mem_map.1 mem
    exact Kind.erase_ne_void (valid.wellFormed.no_void own known)
  · obtain ⟨own, known, rfl⟩ := List.mem_map.1 mem
    exact Kind.erase_over (valid.params_over own known)

end Signature

/-! Values at lifted kinds. -/

namespace Value

variable {v : Value} {k l : Kind} {vs : List Value} {ks ls : List Kind}

/-- A value of a kind is boxed or moved up as it is. -/
theorem convert_lifted (hv : v.Over F.Has) (hk : k.Over F.Has) (hl : l.Over F.Has)
    (lifts : k.LiftsTo l) (conforms : v.conforms k = true) : v.convert k l = .ok v := by
  cases lifts with
  | keep => exact convert_self v k
  | upcast above =>
    exact convert_of_isSubtypeOf hv (Kind.over_ref.1 hk) (Kind.over_ref.1 hl) above conforms
  | @box p t above =>
    have prim := conforms_prim_iff.1 conforms
    exact (conversion_agreement hv hk hl conforms).boxed p t prim rfl rfl above

/-- A value that is of the kind that was lifted is unboxed or cast down as it is. -/
theorem convert_lowered (lifts : k.LiftsTo l) (conforms : v.conforms k = true) :
    v.convert l k = .ok v := by
  cases lifts with
  | keep => exact convert_self v k
  | @upcast s t above =>
    cases same : Kind.ref t == Kind.ref s with
    | true => exact if_pos same
    | false =>
      rw [convert_ref v same]
      exact checkCast_of_conforms conforms
  | @box p t above =>
    have prim := conforms_prim_iff.1 conforms
    show v.unbox p = .ok v
    simp only [unbox, prim, p.widensTo_refl, if_true, widen_self prim]

/-- Arguments that are lifted, or lowered to the kinds that they are of, stay as they are. -/
theorem convertAll_of_lifts (knowledge : Knowledge F K) (fits : Fits F K vs ks)
    (hk : ∀ k ∈ ks, k.Over F.Has) (hl : ∀ l ∈ ls, l.Over F.Has)
    (lifts : List.Forall₂ Kind.LiftsTo ks ls) :
    convertAll (vs.zip (ks.zip ls)) = .ok vs ∧ convertAll (vs.zip (ls.zip ks)) = .ok vs := by
  obtain ⟨conform, made⟩ := fits
  induction conform generalizing ls with
  | nil => exact ⟨rfl, rfl⟩
  | cons here _ ih =>
    cases lifts with
    | cons lift lifts =>
      obtain ⟨first, hk⟩ := List.forall_mem_cons.1 hk
      obtain ⟨second, hl⟩ := List.forall_mem_cons.1 hl
      obtain ⟨known, made⟩ := List.forall_mem_cons.1 made
      obtain ⟨lifted, lowered⟩ := ih hk hl lifts made
      have hv := over_of_madeOf knowledge known
      constructor
      · rw [List.zip_cons_cons, List.zip_cons_cons, convertAll_cons,
          convert_lifted hv first second lift here, lifted]
        rfl
      · rw [List.zip_cons_cons, List.zip_cons_cons, convertAll_cons,
          convert_lowered lift here, lowered]
        rfl

end Value

namespace Handle

variable {h a : Handle} {t : Signature} {args : List Value} {s : State} {run : Runner}

/-! A handle whose arguments and result are converted to what they are. -/

/-- A call that is converted without effect on the arguments is a call with a converted result. -/
theorem convertedCall_of_unchanged
    (unchanged : Value.convertAll (args.zip (t.params.zip h.signature.params)) = .ok args) :
    h.convertedCall run t args = (do
      let result ← h.invokeExact run args
      Exec.ofExcept (result.convert h.signature.ret t.ret)) := by
  unfold convertedCall
  rw [unchanged]
  rfl

/-- A conversion that changes no result that there may be is left out. -/
theorem bind_convert_of_unchanged {x : Exec Value} {source target : Kind}
    (unchanged : ∀ v u, x s = (.ok v, u) → v.convert source target = .ok v) :
    (do
      let v ← x
      Exec.ofExcept (v.convert source target)) s = x s := by
  match result : x s with
  | (.ok v, u) =>
    rw [bind_of_ok result, unchanged v u result]
    rfl
  | (.error e, u) => rw [bind_of_error result]

/-- A handle that does what another one does, of which it was made by way of a third: it has the
same signature, and on any arguments of it comes to the same, so many calls deeper. -/
structure Restores (F : ClassLibrary) (h a b : Handle) : Prop where
  signature : b.signature = h.signature
  invokeExact : ∀ ⦃values args : List Value⦄ ⦃s : State⦄ ⦃host : Host⦄, WeaklyReached F values s →
    Among values (.handle h) → Among values (.handle a) → host.Uses F (Among values) →
    (∀ v ∈ args, v.MadeOf F (Among values)) → Conform args h.signature.params → ∀ n,
      b.invokeExact (runCode host (n + h.layersFor a.signature + a.layersFor h.signature)) args s =
        h.invokeExact (runCode host n) args s

/-- Adapters to a lift of the signature and back change neither the arguments nor the result. -/
theorem restores_of_lifts {b : Handle} (own : h.signature.Valid F.Has)
    (valid : a.signature.Valid F.Has) (lifts : h.signature.LiftsTo a.signature)
    (out : h.Adapts F a) (back : a.Adapts F b) (signature : b.signature = h.signature) :
    h.Restores F a b := by
  refine ⟨signature, fun values args s host reached known adapted uses made conform n => ?_⟩
  obtain ⟨K, sound, valuesMade⟩ := reached.sound
  have grows := Among.grows valuesMade
  have fits : Fits F K args h.signature.params := ⟨conform, forall_madeOf_mono grows made⟩
  obtain ⟨lifted, lowered⟩ := Value.convertAll_of_lifts sound.knowledge fits own.params_over
    valid.params_over lifts.params
  have above := Value.fits_of_convertAll fits own.params_over valid.params_over
    lifts.params.length_eq lifted
  have yields : (h.invokeExact (runCode host n) args).Yields F h.signature.ret s := by
    rw [h.invokeExact_of_conform _ conform]
    exact call_yields (uses.mono grows) sound (grows _ known) fits n
  have inner : a.invokeExact (runCode host (n + h.layersFor a.signature)) args s =
      h.invokeExact (runCode host n) args s := by
    rw [out.invokeExact reached known uses made above.conform n, convertedCall_of_unchanged lowered]
    refine bind_convert_of_unchanged fun v u done => ?_
    obtain ⟨inside, conforms⟩ := yields v u done
    exact Value.convert_lifted inside own.ret_over valid.ret_over lifts.ret conforms
  have outer := back.invokeExact reached adapted uses made (signature ▸ conform)
    (n + h.layersFor a.signature)
  rw [signature] at outer
  rw [outer, convertedCall_of_unchanged lifted, ← inner]
  refine bind_convert_of_unchanged fun v u done => ?_
  exact Value.convert_lowered lifts.ret (yields v u (inner.symm.trans done)).2

/-- Adaptation to a lift of the signature may be taken back. A handle is adapted to every lift of
its signature, the adapter is adapted back to the signature in every state where it is at hand, and
what comes out does what the handle does. Erasing a signature lifts it. -/
theorem asType_reverts {values : List Value} (reached : WeaklyReached F values s)
    (known : Among values (.handle h)) :
    (h.signature.LiftsTo h.signature.erase ∧ h.signature.erase.Valid F.Has) ∧
    ∀ t : Signature, t.Valid F.Has → h.signature.LiftsTo t →
      ∃ a u, h.asType t s.handles = (.ok a, u) ∧ a.signature = t ∧
        ∀ values' s', WeaklyReached F values' s' → Among values' (.handle a) →
          ∃ b u', a.asType h.signature s'.handles = (.ok b, u') ∧ h.Restores F a b := by
  obtain ⟨K, sound, valuesMade⟩ := reached.sound
  have own := (sound.knowledge.handle h (Among.grows valuesMade _ known)).valid
  refine ⟨⟨h.signature.liftsTo_erase, own.erase⟩, fun t valid lifts => ?_⟩
  have transparent := asType_transparent reached known valid
  have params : List.Forall₂ (fun own wanted => Kind.isConvertibleTo wanted own = true)
      h.signature.params t.params := lifts.params.imp fun _ _ lift => lift.isConvertibleTo_back
  obtain ⟨a, u, asked⟩ := transparent.succeeds.2 (.inr ⟨params, lifts.ret.isConvertibleTo⟩)
  obtain ⟨rfl, out⟩ := transparent.adapts a u asked
  refine ⟨a, u, asked, rfl, fun values' s' reached' adapted => ?_⟩
  have transparent' := asType_transparent reached' adapted own
  have params' : List.Forall₂ (fun own wanted => Kind.isConvertibleTo wanted own = true)
      a.signature.params h.signature.params :=
    lifts.params.flip.imp fun _ _ lift => lift.isConvertibleTo
  obtain ⟨b, u', asked'⟩ :=
    transparent'.succeeds.2 (.inr ⟨params', lifts.ret.isConvertibleTo_back⟩)
  obtain ⟨signature, back⟩ := transparent'.adapts b u' asked'
  exact ⟨b, u', asked', restores_of_lifts own valid lifts out back signature⟩

/-- A handle over numbers and an exception class is boxed and moved up, and taken back. -/
theorem asType_reverts_boxing :
    ∃ (values values' : List Value) (s s' : State) (h a b : Handle) (u u' : HandleTable),
      WeaklyReached .builtin values s ∧ Among values (.handle h) ∧
      h.signature = ⟨.int, [.int, .ofClass .nullPointer]⟩ ∧
      Signature.Valid ClassLibrary.builtin.Has ⟨.object, [.ref .number, .throwable]⟩ ∧
      h.signature.LiftsTo ⟨.object, [.ref .number, .throwable]⟩ ∧
      h.asType ⟨.object, [.ref .number, .throwable]⟩ s.handles = (.ok a, u) ∧
      WeaklyReached .builtin values' s' ∧ Among values' (.handle a) ∧
      a.asType h.signature s'.handles = (.ok b, u') ∧ h.Restores .builtin a b ∧
      b.invokeExact (runCode .echo 5) [.int 1, .null] s' =
        h.invokeExact (runCode .echo 3) [.int 1, .null] s' ∧
      (h.invokeExact (runCode .echo 3) [.int 1, .null] s').1 = .ok (.int 1) := by
  have own : Signature.Valid ClassLibrary.builtin.Has ⟨.int, [.int, .ofClass .nullPointer]⟩ := by
    refine ⟨⟨by decide, by simp [Kind.int, Kind.ofClass]⟩, Kind.over_prim, ?_⟩
    simp [Kind.int, Kind.ofClass, ClassLibrary.builtin, ClassFamily.builtin, ClassDef.builtins]
  have valid : Signature.Valid ClassLibrary.builtin.Has ⟨.object, [.ref .number, .throwable]⟩ :=
    ⟨⟨by decide, by simp [Kind.throwable]⟩, by simp [Kind.object, RefType.Over],
      by simp [Kind.throwable, RefType.Over]⟩
  have lifts : Signature.LiftsTo ⟨.int, [.int, .ofClass .nullPointer]⟩
      ⟨.object, [.ref .number, .throwable]⟩ :=
    ⟨.box (by decide), .cons (.box (by decide)) (.cons (.upcast (by decide)) .nil)⟩
  have idle := Host.idle_uses .builtin
  have made := Reached.start.perform (.construct (.ofAction ⟨.int, [.int, .ofClass .nullPointer]⟩
    (.host ⟨0, "echo"⟩))) 1 (idle _) ⟨own, trivial⟩
  have adapted := made.perform (.construct (.asType _ ⟨.object, [.ref .number, .throwable]⟩)) 1
    (idle _) ⟨Among.last rfl, valid⟩
  obtain ⟨-, reverts⟩ := asType_reverts made.weakly (Among.last rfl)
  obtain ⟨a, u, asked, -, back⟩ := reverts _ valid lifts
  cases asked
  obtain ⟨b, u', asked', restores⟩ := back _ _ adapted.weakly (Among.last rfl)
  have conform : Conform [.int 1, .null] [.int, .ofClass .nullPointer] :=
    .cons rfl (.cons rfl .nil)
  have runs := restores.invokeExact adapted.weakly (Among.last rfl).later (Among.last rfl)
    (Host.echo_uses _ _) (List.forall_mem_cons.2 ⟨.plain rfl,
      List.forall_mem_singleton.2 (.plain rfl)⟩) conform 3
  exact ⟨_, _, _, _, _, _, b, _, u', made.weakly, Among.last rfl, rfl, valid, lifts, rfl,
    adapted.weakly, Among.last rfl, asked', restores, runs, rfl⟩

end Handle
end TypedHandles
