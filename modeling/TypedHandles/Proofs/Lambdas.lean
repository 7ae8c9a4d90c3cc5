import TypedHandles.Proofs.Capturing
import TypedHandles.Proofs.Members
import TypedHandles.Proofs.Recording
import TypedHandles.Lambda

/-!
Lambdas from end to end. The shapes of a lambda's pieces are checked once, where it is linked; no
binding and no adaptation that is done later, for each list of captured values, can fail then.
-/
namespace TypedHandles

theorem Kind.isConvertibleTo_void (k : Kind) : k.isConvertibleTo .void = true := by
  cases k <;> rfl

namespace Lambda

variable {F : ClassLibrary}

/-- A handle that calls the implementation on captured values and on its own arguments, converting
these and the result. It takes at most two calls more to get there. -/
structure Implements (F : ClassLibrary) (implementation : Handle) (captured : List Value)
    (instantiated : Signature) (lambda : Handle) : Prop where
  signature : lambda.signature = instantiated
  runs : ∃ layers ≤ 2, ∀ {values args : List Value} {s : State} {host : Host} (n : Nat),
    Reached F values s → host.Uses F (Among values) → Among values (.handle implementation) →
    (∀ v ∈ captured, v.MadeOf F (Among values)) → (∀ v ∈ args, v.MadeOf F (Among values)) →
    Conform args instantiated.params →
    lambda.invokeExact (runCode host (n + layers)) args s =
      implementation.through (runCode host n) captured instantiated args s

/-- A handle that makes lambdas of the values that it is called on, and always the same one where
there is nothing to capture. -/
structure Makes (F : ClassLibrary) (factory : Signature) (implementation : Handle)
    (instantiated : Signature) (target : Handle) : Prop where
  signature : target.signature = factory
  makes : ∀ (captured : List Value) (host : Host) (n : Nat) (s : State),
    Conform captured factory.params → ∃ lambda t,
      target.invokeExact (runCode host (n + 2)) captured s = (.ok (.handle lambda), t) ∧
      Implements F implementation captured instantiated lambda
  shared : factory.params = [] → ∃ lambda, ∀ (host : Host) (n : Nat) (s : State),
    target.invokeExact (runCode host (n + 2)) [] s = (.ok (.handle lambda), s)

/-! Shapes. -/

/-- Pieces of a lambda whose shapes fit. -/
structure Fitting (captured : List Kind) (sam implementation instantiated : Signature) : Prop where
  arity_eq : implementation.arity = captured.length + sam.arity
  sam_arity : instantiated.arity = sam.arity
  leading : (captured == implementation.params.take captured.length) = true
  supplied : List.Forall₂ (fun k wanted => Kind.isConvertibleTo k wanted = true)
    instantiated.params (implementation.paramsFrom captured.length)
  returned : implementation.ret.isConvertibleTo instantiated.ret = true

/-- No pair of a list is bad where the first bad one is not found. -/
theorem forall_of_find?_mapIdx {α β : Type} (pairs : List (α × β)) (bad : α → β → Bool)
    (none : ((pairs.mapIdx fun i (a, b) => (i, a, b)).find? fun (_, a, b) => bad a b) = none) :
    ∀ a b, (a, b) ∈ pairs → bad a b = false := by
  intro a b mem
  obtain ⟨i, inside, here⟩ := List.getElem_of_mem mem
  have fine := List.find?_eq_none.1 none (i, a, b)
    (List.mem_mapIdx.2 ⟨i, inside, by rw [here]⟩)
  exact eq_false_of_ne_true fine

theorem fitting_of_validate {captured : List Kind} {sam instantiated : Signature}
    {implementation : Handle} (valid : validate captured sam implementation instantiated = .ok ()) :
    Fitting captured sam implementation.signature instantiated := by
  have faultless : fault? captured sam implementation.signature instantiated = none := by
    unfold validate at valid
    split at valid
    · cases valid
    · assumption
  unfold fault? at faultless
  split at faultless
  · cases faultless
  next arity =>
  split at faultless
  · cases faultless
  next samArity =>
  simp only [Option.orElse_eq_orElse, Option.orElse_eq_or, Option.or_eq_none_iff] at faultless
  obtain ⟨leading, supplied, returned⟩ := faultless
  have leading := forall_of_find?_mapIdx (captured.zip implementation.signature.params)
    (fun found wanted => found != wanted) (Option.map_eq_none_iff.1 leading)
  have supplied := forall_of_find?_mapIdx
    (instantiated.params.zip (implementation.signature.paramsFrom captured.length))
    (fun found wanted => !found.isConvertibleTo wanted) (Option.map_eq_none_iff.1 supplied)
  have count : implementation.signature.params.length = captured.length + sam.arity :=
    Decidable.not_not.1 arity
  have samCount : instantiated.params.length = sam.arity := Decidable.not_not.1 samArity
  refine ⟨count, samCount, beq_of_forall₂ ?_, ?_, ?_⟩
  · refine List.forall₂_iff_zip.2 ⟨by simp [count], fun {k own} mem => ?_⟩
    have all : (captured.zip implementation.signature.params).take captured.length =
        captured.zip (implementation.signature.params.take captured.length) := by
      rw [List.zip, List.take_zipWith, List.take_length]
    simpa [bne] using leading k own (List.mem_of_mem_take (all ▸ mem))
  · refine List.forall₂_iff_zip.2 ⟨?_, fun {k wanted} mem => ?_⟩
    · rw [samCount, Signature.paramsFrom, List.length_drop, count]
      omega
    · simpa using supplied k wanted mem
  · unfold returnFault? at returned
    split at returned
    · next void =>
      rw [Signature.returnsVoid, Kind.isVoid_iff] at void
      rw [void]
      exact Kind.isConvertibleTo_void _
    · split at returned
      · cases returned
      · split at returned
        · cases returned
        · next convertible => simpa using convertible

section

variable {captured : List Kind} {sam instantiated : Signature} {implementation : Handle}

theorem Fitting.count_le
    (fitting : Fitting captured sam implementation.signature instantiated) :
    captured.length ≤ implementation.arity := by
  have arity : implementation.arity = captured.length + sam.arity := fitting.arity_eq
  omega

theorem Fitting.instantiated_arity
    (fitting : Fitting captured sam implementation.signature instantiated) :
    instantiated.arity = (implementation.signature.paramsFrom captured.length).length :=
  fitting.supplied.length_eq

/-- What is left of a fitting implementation converts to the instantiated signature. -/
theorem Fitting.isConvertibleTo
    (fitting : Fitting captured sam implementation.signature instantiated) :
    Signature.isConvertibleTo ⟨implementation.signature.ret,
      implementation.signature.paramsFrom captured.length⟩ instantiated = true := by
  unfold Signature.isConvertibleTo
  refine Bool.or_eq_true_iff.2 (.inr (Bool.and_eq_true_iff.2 ⟨Bool.and_eq_true_iff.2 ⟨?_, ?_⟩,
    fitting.returned⟩))
  · exact beq_iff_eq.2 fitting.instantiated_arity.symm
  · refine List.all_eq_true.2 fun (own, wanted) mem => ?_
    exact (List.forall₂_iff_zip.1 fitting.supplied.flip).2 mem

end

/-! Factories. -/

section

variable {captured : List Value} {sam factory instantiated : Signature} {implementation : Handle}

/-- A handle that runs the code of another one for the instantiated signature is a lambda if that
code is one. -/
theorem implements_of_code {lambda h : Handle} (own : h.signature.Valid F.Has)
    (valid : instantiated.Valid F.Has)
    (code : Code.program lambda.signature lambda.program = h.codeFor instantiated) (layers : Nat)
    (few : layers ≤ 2)
    (runs : ∀ {K : Known} {args : List Value} {s : State} {host : Host} (n : Nat), s.Sound F K →
      host.Uses F K → K (.handle implementation) → (∀ v ∈ captured, v.MadeOf F K) →
      Fits F K args instantiated.params →
      runCode host (n + layers) (h.codeFor instantiated) args s =
        implementation.through (runCode host n) captured instantiated args s) :
    Implements F implementation captured instantiated lambda := by
  have same : lambda.signature = instantiated := by
    unfold Handle.codeFor at code
    split at code
    · next equal =>
      rw [(Code.program.inj code).1]
      exact (Signature.beq_iff own valid).1 equal
    · exact (Code.program.inj code).1
  refine ⟨same, layers, few, fun {values args s host} n reached uses known held given conform => ?_⟩
  obtain ⟨K, sound, made⟩ := reached.sound
  have grows := Among.grows made
  rw [lambda.invokeExact_of_conform _ (same ▸ conform)]
  show runCode host (n + layers) (.program lambda.signature lambda.program) args s = _
  rw [code]
  exact runs n sound (uses.mono grows) (grows _ known) (forall_madeOf_mono grows held)
    ⟨conform, forall_madeOf_mono grows given⟩

theorem layersFor_le (h : Handle) (caller : Signature) : h.layersFor caller ≤ 1 := by
  unfold Handle.layersFor
  split
  · exact Nat.zero_le 1
  · exact Nat.le_refl 1

/-- Where nothing is captured, the implementation itself is adapted. -/
theorem implements_of_adapted {lambda : Handle} {sam : Signature}
    (own : implementation.signature.Valid F.Has) (valid : instantiated.Valid F.Has)
    (fitting : Fitting [] sam implementation.signature instantiated)
    (code : Code.program lambda.signature lambda.program = implementation.codeFor instantiated) :
    Implements F implementation [] instantiated lambda := by
  have few := layersFor_le implementation instantiated
  refine implements_of_code own valid code _ (Nat.le_succ_of_le few)
    fun {K args s host} n sound uses known _ fits => ?_
  exact Handle.runCode_codeFor_through sound.knowledge own valid fitting.instantiated_arity fits
    fun values fits => Handle.call_yields uses sound known fits n

/-- Where values are captured, the implementation is bound to them and adapted then. -/
theorem implements_of_bound {lambda : Handle} {sam : Signature} {kinds : List Kind} {id : Nat}
    (own : implementation.signature.Valid F.Has) (valid : instantiated.Valid F.Has)
    (fitting : Fitting kinds sam implementation.signature instantiated)
    (conform : Conform captured kinds)
    (code : Code.program lambda.signature lambda.program =
      (implementation.boundTo captured id).codeFor instantiated) :
    Implements F implementation captured instantiated lambda := by
  have count : captured.length = kinds.length := conform.length_eq
  have leads : captured.length ≤ implementation.arity := count ▸ fitting.count_le
  have few := layersFor_le (implementation.boundTo captured id) instantiated
  have front : Conform captured (implementation.signature.params.take captured.length) := by
    rw [count]
    exact (conform_congr fitting.leading captured).1 conform
  refine implements_of_code (Handle.boundTo_valid own captured id) valid code
    (1 + (implementation.boundTo captured id).layersFor instantiated)
    (Nat.add_le_add_left few 1) fun {K args s host} n sound uses known held fits => ?_
  rw [← Nat.add_assoc]
  refine Handle.runCode_codeFor_boundTo sound.knowledge own valid leads ?_ fits
    fun values fits => Handle.call_yields uses sound known ?_ n
  · rw [fitting.instantiated_arity, ← count]
    rfl
  · have all : Fits F K (captured ++ values) _ := Fits.append ⟨front, held⟩ fits
    rwa [Signature.paramsFrom, List.take_append_drop] at all

/-- A handle is accepted where a factory of a fitting signature returns it. -/
theorem conforms_of_returnsHandle (accepts : returnsHandle factory = true) (h : Handle) :
    (Value.handle h).conforms factory.ret = true := by
  unfold returnsHandle at accepts
  split at accepts
  · next t ret =>
    rw [ret]
    exact accepts
  · cases accepts

/-- The function behind a factory never fails on values of its parameters. -/
theorem perform_lambda {sam : Signature} (name : String)
    (own : implementation.signature.Valid F.Has) (valid : instantiated.Valid F.Has)
    (fitting : Fitting factory.params sam implementation.signature instantiated)
    (conform : Conform captured factory.params) (s : State) :
    ∃ lambda t,
      (Intrinsic.lambda name implementation instantiated).perform captured s =
        (.ok (.handle lambda), t) ∧
      Implements F implementation captured instantiated lambda := by
  have count : captured.length = factory.params.length := conform.length_eq
  have leads : captured.length ≤ implementation.arity := count ▸ fitting.count_le
  have front : Conform captured (implementation.signature.params.take captured.length) := by
    rw [count]
    exact (conform_congr fitting.leading captured).1 conform
  have bound : Build.allocate (Blueprint.insertArguments implementation 0 captured) s.handles =
      (.ok (implementation.boundTo captured s.handles.adapters.size),
        ⟨s.handles.adapters.push none⟩) := by
    rw [Blueprint.insertArguments_eq own.wellFormed leads front]
    rfl
  have convertible := fitting.isConvertibleTo
  rw [← count] at convertible
  obtain ⟨lambda, t, adapted, -, code⟩ := Handle.asType_of_isConvertibleTo
    (h := implementation.boundTo captured s.handles.adapters.size)
    (s.handles.recalls_new _ _ _ instantiated) convertible
  let between : State := { s with handles := ⟨s.handles.adapters.push none⟩ }
  refine ⟨lambda, { s with handles := t }, ?_, implements_of_bound own valid fitting conform code⟩
  unfold Intrinsic.perform
  dsimp only
  rw [bind_of_ok (Handle.ofBuild_eq bound),
    bind_of_ok (Handle.ofBuild_eq (s := between) adapted)]
  rfl

/-- A factory that captures makes a lambda of each list of values. -/
theorem makes_of_capturing {target : Handle} {sam : Signature} (name : String)
    (own : implementation.signature.Valid F.Has) (valid : instantiated.Valid F.Has)
    (accepts : returnsHandle factory = true)
    (fitting : Fitting factory.params sam implementation.signature instantiated)
    (captures : factory.params ≠ []) (signature : target.signature = factory)
    (performs : target.Performs (.intrinsic (.lambda name implementation instantiated))) :
    Makes F factory implementation instantiated target := by
  subst signature
  refine ⟨rfl, fun captured host n s conform => ?_, fun none => absurd none captures⟩
  obtain ⟨lambda, t, made, implements⟩ := perform_lambda name own valid fitting conform s
  exact ⟨lambda, t, performs.invokeExact_of_ok conform made (conforms_of_returnsHandle accepts _),
    implements⟩

/-- A factory that captures nothing returns the lambda that was made when it was linked. -/
theorem makes_of_constant {target lambda : Handle}
    (nothing : factory.params = []) (accepts : returnsHandle factory = true)
    (signature : target.signature = factory)
    (program : target.program = .single factory fun _ => .const (.handle lambda))
    (implements : Implements F implementation [] instantiated lambda) :
    Makes F factory implementation instantiated target := by
  have returns : ∀ (host : Host) (n : Nat) (s : State),
      target.invokeExact (runCode host (n + 2)) [] s = (.ok (.handle lambda), s) := by
    intro host n s
    have none : ([] : List Value).length = factory.arity := by simp [Signature.arity, nothing]
    have conform : Conform [] target.signature.params := by
      rw [signature, nothing]
      exact .nil
    rw [target.invokeExact_of_conform _ conform]
    show target.program.perform (runCode host (n + 1)) (n + 1) [] s = _
    rw [program, Program.single_perform none]
    show (Except.ok (factory.ret.kept (.handle lambda)), s) = _
    rw [Kind.kept_of_conforms (conforms_of_returnsHandle accepts lambda)]
  refine ⟨signature, fun captured host n s conform => ?_, fun _ => ⟨lambda, returns⟩⟩
  rw [nothing] at conform
  cases conform
  exact ⟨lambda, s, returns host n s, implements⟩

end

/-! The bootstrap. -/

section

variable {run : Runner} {s t : State}

/-- Host code goes on with the answer of an operation that succeeds. -/
theorem run_andThen {question : Operation} {v : Value} (next : Value → HostTask)
    (answers : question.answer run s = (.ok v, t)) :
    (HostTask.andThen question next).run run s = (next v).run run t := by
  have attempted := Exec.attempt_apply (question.answer run) s
  rw [answers] at attempted
  exact bind_of_ok attempted

/-- How the bootstrap ends: with a site for a target. -/
def publishing : Value → HostTask
  | .handle target => .last (.newSite .constant target)
  | other => .value other

theorem run_publishing (run : Runner) (s : State) (target : Handle) : ∃ u,
    (publishing (.handle target)).run run s =
      (.ok (.callSite ⟨s.sites.size, .constant, target.signature⟩), u) ∧
    u.target? ⟨s.sites.size, .constant, target.signature⟩ = some target := by
  refine ⟨_, rfl, ?_⟩
  simp [State.target?, State.cell?]

/-- A handle has no key, so a constant of it is made anew. -/
theorem cachedConstant_handle {cache : Nat} {kind : Kind} {h : Handle} (nonVoid : kind ≠ .void)
    (accepted : (Value.handle h).conforms kind = true) (inside : cache < s.caches.size) :
    ∃ t, cachedConstant cache kind (.handle h) s =
      (.ok ⟨s.handles.adapters.size, ⟨kind, []⟩,
        .single ⟨kind, []⟩ fun _ => .const (.handle h), false⟩, t) := by
  have fitted := Value.coerce_of_conforms nonVoid accepted
  have made : SharedHandles.constant s.caches[cache] kind (.handle h) s.handles =
      (.ok (⟨s.handles.adapters.size, ⟨kind, []⟩,
        .single ⟨kind, []⟩ fun _ => .const (.handle h), false⟩, s.caches[cache]),
        ⟨s.handles.adapters.push none⟩) := by
    have keyless : (Value.handle h).key? = none := rfl
    unfold SharedHandles.constant Build.accept
    have taken : Build.ofChecked (Checked.ofExcept (.ok (Value.handle h))) s.handles =
        (.ok (.handle h), s.handles) := rfl
    rw [fitted, bind_of_ok taken]
    simp only [keyless, Blueprint.constant_of_fitted fitted]
    rfl
  exact ⟨_, withCache_of_ok (Array.getElem?_eq_getElem inside) made⟩

end

section

variable {lookup : Lookup} {point : Descriptor} {sam instantiated : Signature}
  {implementation : Handle}

theorem bootstrap_of_refused {failure : Failure}
    (statics : point.staticArgs = [.signature sam, .handle implementation, .signature instantiated])
    (accepts : returnsHandle point.signature = true)
    (refused : validate point.signature.params sam implementation instantiated = .error failure) :
    bootstrap lookup point = .fail failure := by
  simp only [bootstrap, statics, accepts, refused]
  rfl

theorem bootstrap_of_validate (lookup : Lookup)
    (statics : point.staticArgs = [.signature sam, .handle implementation, .signature instantiated])
    (accepts : returnsHandle point.signature = true)
    (passed : validate point.signature.params sam implementation instantiated = .ok ()) :
    bootstrap lookup point =
      if point.signature.params.isEmpty then
        .andThen (.construct (.asType implementation instantiated)) fun made =>
          .andThen (.cachedConstant lookup.cache point.signature.ret made) publishing
      else .andThen (.lambdaFactory point.name point.signature implementation instantiated)
        publishing := by
  simp only [bootstrap, statics, accepts, passed]
  rfl

/-- Where values are captured, the factory is a function that makes a lambda of them. -/
theorem run_capturing {factory : Signature} (run : Runner) (name : String) (s : State)
    (own : implementation.signature.Valid F.Has) (valid : instantiated.Valid F.Has)
    (accepts : returnsHandle factory = true)
    (fitting : Fitting factory.params sam implementation.signature instantiated)
    (captures : factory.params ≠ []) (next : Value → HostTask) : ∃ target u,
    (HostTask.andThen (.lambdaFactory name factory implementation instantiated) next).run run s =
      (next (.handle target)).run run u ∧ Makes F factory implementation instantiated target := by
  let made := Blueprint.ofAction factory (.intrinsic (.lambda name implementation instantiated))
  let target : Handle := ⟨s.handles.adapters.size, made.signature, made.program, false⟩
  refine ⟨target, { s with handles := ⟨s.handles.adapters.push none⟩ }, run_andThen next rfl, ?_⟩
  exact makes_of_capturing name own valid accepts fitting captures rfl rfl

/-- Where nothing is captured, the one lambda is made now, and the factory is a constant. -/
theorem run_constant {K : Known} {cache : Nat} {factory : Signature} {s : State} (run : Runner)
    (sound : s.Sound F K) (known : K (.handle implementation)) (valid : instantiated.Valid F.Has)
    (accepts : returnsHandle factory = true)
    (fitting : Fitting factory.params sam implementation.signature instantiated)
    (nothing : factory.params = []) (cached : cache < s.caches.size) (next : Value → HostTask) :
    ∃ target u,
      (HostTask.andThen (.construct (.asType implementation instantiated)) fun made =>
        .andThen (.cachedConstant cache factory.ret made) next).run run s =
        (next (.handle target)).run run u ∧ Makes F factory implementation instantiated target := by
  have own := (sound.knowledge.handle _ known).valid
  rw [nothing] at fitting
  obtain ⟨lambda, t, adapted, -, code⟩ := Handle.asType_of_isConvertibleTo
    (sound.handles.recalls sound.knowledge known valid) fitting.isConvertibleTo
  have implements := implements_of_adapted own valid fitting code
  have conforms := conforms_of_returnsHandle accepts lambda
  have nonVoid : factory.ret ≠ .void := by
    intro void
    rw [void] at conforms
    cases conforms
  let u : State := { s with handles := t }
  obtain ⟨w, stored⟩ := cachedConstant_handle (s := u) nonVoid conforms cached
  have signature : (⟨factory.ret, []⟩ : Signature) = factory := by
    cases factory
    rw [← nothing]
  rw [signature] at stored
  have first : (Operation.construct (.asType implementation instantiated)).answer run s =
      (.ok (.handle lambda), u) := bind_of_ok (Handle.ofBuild_eq adapted)
  have second : (Operation.cachedConstant cache factory.ret (.handle lambda)).answer run u = _ :=
    bind_of_ok stored
  refine ⟨_, w, (run_andThen _ first).trans (run_andThen next second), ?_⟩
  exact makes_of_constant nothing accepts rfl rfl implements

/-- When the shapes fit, the bootstrap ends with a site whose target makes lambdas. -/
theorem run_bootstrap_of_validate {K : Known} {s : State} (sound : s.Sound F K)
    (cached : lookup.cache < s.caches.size) (made : ∀ v ∈ point.staticArgs, v.MadeOf F K)
    (statics : point.staticArgs = [.signature sam, .handle implementation, .signature instantiated])
    (accepts : returnsHandle point.signature = true)
    (passed : validate point.signature.params sam implementation instantiated = .ok ())
    (run : Runner) :
    ∃ target u, (bootstrap lookup point).run run s = (publishing (.handle target)).run run u ∧
      Makes F point.signature implementation instantiated target := by
  have fitting := fitting_of_validate passed
  rw [statics] at made
  have known : K (.handle implementation) := Value.madeOf_handle_iff.1 (made _ (by simp))
  have own := (sound.knowledge.handle _ known).valid
  have valid : instantiated.Valid F.Has := Value.madeOf_signature_iff.1 (made _ (by simp))
  rw [bootstrap_of_validate lookup statics accepts passed]
  by_cases nothing : point.signature.params = []
  · rw [if_pos (List.isEmpty_iff.2 nothing)]
    exact run_constant run sound known valid accepts fitting nothing cached publishing
  · rw [if_neg fun empty => nothing (List.isEmpty_iff.1 empty)]
    exact run_capturing run point.name s own valid accepts fitting nothing publishing

end

/-- The bootstrap of lambdas from end to end. It fails just as the check of the shapes does; when
the shapes fit it yields a constant site of the call point's signature, whose target turns any
values of its parameters into a handle of the instantiated signature, which does what it should. -/
theorem bootstrap_links {values : List Value} {s : State} {lookup : Lookup} {point : Descriptor}
    {sam instantiated : Signature} {implementation : Handle} (reached : Reached F values s)
    (cached : lookup.cache < s.caches.size) (made : point.MadeOf F (Among values))
    (statics : point.staticArgs = [.signature sam, .handle implementation, .signature instantiated])
    (accepts : returnsHandle point.signature = true) (host : Host) (n : Nat) :
    let outcome := (bootstrap lookup point).run (runCode host n) s
    let checked := validate point.signature.params sam implementation instantiated
    ((∃ v, outcome.1 = .ok v) ↔ checked = .ok ()) ∧
    (∀ failure, checked = .error failure → outcome.1 = .error (.failed failure)) ∧
    (checked = .ok () → ∃ site target, outcome.1 = .ok (.callSite site) ∧
      site.kind = .constant ∧ site.signature = point.signature ∧
      outcome.2.target? site = some target ∧
      Makes F point.signature implementation instantiated target) := by
  intro outcome checked
  have refused : ∀ failure, checked = .error failure → outcome.1 = .error (.failed failure) := by
    intro failure fails
    simp only [outcome, bootstrap_of_refused statics accepts fails]
    rfl
  have linked : checked = .ok () → ∃ site target, outcome.1 = .ok (.callSite site) ∧
      site.kind = .constant ∧ site.signature = point.signature ∧
      outcome.2.target? site = some target ∧
      Makes F point.signature implementation instantiated target := by
    intro passed
    obtain ⟨K, sound, held⟩ := reached.sound
    have given := forall_madeOf_mono (Among.grows held) made.staticArgs
    obtain ⟨target, u, ran, makes⟩ :=
      run_bootstrap_of_validate sound cached given statics accepts passed (runCode host n)
    obtain ⟨w, published, stored⟩ := run_publishing (runCode host n) u target
    rw [show outcome = _ from ran.trans published]
    exact ⟨_, target, rfl, rfl, makes.signature, stored, makes⟩
  refine ⟨⟨fun ⟨v, done⟩ => ?_, fun passed => ?_⟩, refused, linked⟩
  · cases fails : checked with
    | ok u => rfl
    | error failure => cases (refused failure fails).symm.trans done
  · obtain ⟨site, -, done, -⟩ := linked passed
    exact ⟨_, done⟩

/-- A comparison with a captured number, behind a method that takes a short and returns an
object. -/
theorem bootstrap_links_comparison :
    ∃ (values : List Value) (s t u : State) (site : CallSite)
      (target implementation lambda : Handle) (n : Nat),
      Reached .builtin values s ∧ Among values (.handle implementation) ∧
      (bootstrap ⟨"Main", 0, none, 0⟩ ⟨"compare", ⟨.ref .handle, [.prim .int]⟩,
        [.signature ⟨.ref .object, [.ref .object]⟩, .handle implementation,
          .signature ⟨.ref .object, [.prim .short]⟩]⟩).run (runCode .idle 1) s =
        (.ok (.callSite site), t) ∧
      site.kind = .constant ∧ t.target? site = some target ∧
      target.invokeExact (runCode .idle 2) [.int 3] t = (.ok (.handle lambda), u) ∧
      lambda.signature = ⟨.ref .object, [.prim .short]⟩ ∧
      lambda.invokeExact (runCode .idle n) [.short 5] s = (.ok (.bool true), s) := by
  let compared : Signature := ⟨.prim .bool, [.prim .int, .prim .int]⟩
  let sam : Signature := ⟨.ref .object, [.ref .object]⟩
  let instantiated : Signature := ⟨.ref .object, [.prim .short]⟩
  let action : Action := .intrinsic .intLess
  let implementation : Handle :=
    ⟨0, compared, (Blueprint.ofAction compared action).program, false⟩
  let point : Descriptor := ⟨"compare", ⟨.ref .handle, [.prim .int]⟩,
    [.signature sam, .handle implementation, .signature instantiated]⟩
  have reached : Reached .builtin [.handle implementation] _ :=
    (Reached.newCache .start).perform (.construct (.ofAction compared action)) 1
      (Host.idle_uses .builtin _) ⟨⟨⟨by decide, by simp [compared]⟩, by simp [compared],
        by simp [compared]⟩, trivial⟩
  have held : Among [.handle implementation] (.handle implementation) := Among.last rfl
  have made : point.MadeOf .builtin (Among [.handle implementation]) := by
    refine ⟨⟨⟨by decide, by simp [point]⟩, by simp [point, RefType.Over], by simp [point]⟩, ?_⟩
    simp only [point, List.forall_mem_cons]
    refine ⟨.signature ⟨⟨by decide, by simp [sam]⟩, by simp [sam, RefType.Over],
        by simp [sam, RefType.Over]⟩, .known rfl held,
      .signature ⟨⟨by decide, by simp [instantiated]⟩, by simp [instantiated, RefType.Over],
        by simp [instantiated]⟩, List.forall_mem_nil _⟩
  have cached : (⟨"Main", 0, none, 0⟩ : Lookup).cache < 1 := by decide
  obtain ⟨-, -, links⟩ := bootstrap_links reached cached made rfl rfl .idle 1
  obtain ⟨site, target, done, constant, -, stored, makes⟩ := links rfl
  obtain ⟨lambda, u, returned, implements⟩ := makes.makes [.int 3] .idle 0 _ (.cons rfl .nil)
  obtain ⟨layers, -, runs⟩ := implements.runs
  have plain : ∀ n : Int32, ∀ v ∈ [Value.int n],
      v.MadeOf .builtin (Among [.handle implementation]) :=
    fun n => List.forall_mem_singleton.2 (.plain rfl)
  have given : ∀ v ∈ [Value.short 5], v.MadeOf .builtin (Among [.handle implementation]) :=
    List.forall_mem_singleton.2 (.plain rfl)
  have answered := runs 4 reached (Host.idle_uses .builtin _) held (plain 3) given (.cons rfl .nil)
  exact ⟨_, _, _, u, site, target, implementation, lambda, 4 + layers, reached, held,
    Prod.ext done rfl, constant, stored, returned, implements.signature, answered.trans rfl⟩

end Lambda
end TypedHandles
