import TypedHandles.Proofs.BoundedLoops
import TypedHandles.Proofs.Layers
import TypedHandles.Proofs.Members

/-!
Counted loops are bounded loops. The functions of a counted loop are adapters: the comparison has
its arguments swapped, and the increment, the step and the result ignore the part of the frame that
is ahead of what they take. Each is shown to do on frames what it is made for, and what was accepted
as a loop is shown to be made of them.
-/
namespace TypedHandles

/-- Calls a handle on as many leading arguments as it takes. -/
def Runner.front (run : Runner) (h : Handle) (args : List Value) : Exec Value :=
  run.call h (args.take h.arity)

theorem Signature.ext {s t : Signature} (ret : s.ret = t.ret) (params : s.params = t.params) :
    s = t := by
  cases s
  cases t
  exact congrArg₂ mk ret params

/-! The functions that a counted loop is made of. -/

namespace Handle

variable {h d : Handle} {t u : HandleTable} {host : Host}

/-- A handle that performs an action with a certain outcome returns it. -/
theorem Performs.call_of_pure {action : Action} {args : List Value} {v : Value}
    (performs : h.Performs action) (lengths : args.length = h.signature.arity) {n : Nat}
    (done : action.perform (callHost host (runCode host n)) args = pure v)
    (conforms : v.conforms h.signature.ret = true) :
    (runCode host (n + 2)).call h args = pure v := by
  rw [performs.call lengths, done, pure_bind]
  exact Step.checkResult_of_conforms conforms

/-- The comparison of two values. -/
theorem call_intLess (made : Build.accept Blueprint.intLess t = (.ok h, u)) :
    h.signature = ⟨.bool, [.int, .int]⟩ ∧
    ∀ (host : Host) (n : Nat) (a b : Value),
      (runCode host (n + 2)).call h [a, b] = pure (.bool (a.isBelow b)) := by
  have signature : h.signature = ⟨.bool, [.int, .int]⟩ := by
    cases made
    rfl
  have performs : h.Performs (.intrinsic .intLess) := by
    cases made
    rfl
  refine ⟨signature, fun host n a b => ?_⟩
  have compared : Intrinsic.intLess.perform [a, b] = pure (.bool (a.isBelow b)) := by
    cases a with
    | int a => cases b <;> rfl
    | _ => rfl
  exact performs.call_of_pure (by rw [signature]; rfl) compared (by rw [signature]; rfl)

theorem call_intIncrement (made : Build.accept Blueprint.intIncrement t = (.ok h, u)) :
    h.signature = ⟨.int, [.int]⟩ ∧
    ∀ (host : Host) (n : Nat) (i : Int32),
      (runCode host (n + 2)).call h [.int i] = pure (.int (i + 1)) := by
  have signature : h.signature = ⟨.int, [.int]⟩ := by
    cases made
    rfl
  have performs : h.Performs (.intrinsic .intIncrement) := by
    cases made
    rfl
  refine ⟨signature, fun host n i => ?_⟩
  exact performs.call_of_pure (by rw [signature]; rfl) rfl (by rw [signature]; rfl)

theorem call_identity {kind : Kind} (made : Build.accept (Blueprint.identity kind) t = (.ok h, u)) :
    h.signature = ⟨kind, [kind]⟩ ∧
    ∀ (host : Host) (n : Nat) (v : Value),
      (runCode host (n + 1)).call h [v] = pure (kind.kept v) := by
  have identity : Ends Halt.IsStatic
      (fun b => b.signature = ⟨kind, [kind]⟩ ∧ b.program = ⟨1, [], Program.resultSlot kind 0⟩)
      (Checked.ofExcept (Blueprint.identity kind)) :=
    Ends.ofExcept ((Signature.make_ends _ _).bind fun s spec => ⟨spec.1, rfl⟩)
  obtain ⟨signature, program⟩ : h.signature = _ ∧ h.program = _ := Build.of_allocate identity made
  refine ⟨signature, fun host n v => ?_⟩
  show h.program.perform (runCode host n) n [v] = _
  rw [program]
  unfold Program.perform Program.resultSlot Kind.kept
  cases kind.isVoid <;> rfl

/-- A program that does nothing but call a handle on some of its arguments. -/
theorem call_of_calling {args values : List Value} {slots : List Slot} (arity : Nat)
    (program : d.program = .calling arity [] h slots) (lengths : args.length = arity)
    (carries : Carries args slots values) (host : Host) (n : Nat) :
    (runCode host (n + 1)).call d args = (do
      let result ← (runCode host n).call h values
      return h.signature.ret.kept result) := by
  have computes : Program.Computes (runCode host n) n args [] slots (.ok values) :=
    ⟨[], rfl, by rw [List.append_nil]; rfl, by rwa [List.append_nil]⟩
  show d.program.perform (runCode host n) n args = _
  rw [program, ← lengths]
  exact Program.calling_perform computes h

/-- A handle with ignored parameters in front calls the handle on the others. -/
theorem call_dropArguments {kinds : List Kind} (some : kinds ≠ [])
    (made : h.dropArguments 0 kinds t = (.ok d, u)) :
    d.signature = ⟨h.signature.ret, kinds ++ h.signature.params⟩ ∧
    ∀ (host : Host) (n : Nat) (args : List Value), args.length = d.arity →
      (runCode host (n + 1)).call d args = (do
        let result ← (runCode host n).call h (args.drop kinds.length)
        return h.signature.ret.kept result) := by
  obtain ⟨-, t', -, made⟩ := bind_eq_ok made
  rw [if_neg (by simpa using some)] at made
  let signature : Signature := ⟨h.signature.ret, kinds ++ h.signature.params⟩
  have ignored : Ends Halt.IsStatic (fun b => b.signature = signature ∧
      b.program = .calling signature.arity [] h
        (Program.slots 0 0 ++ Program.slots (0 + kinds.length) signature.arity))
      (Blueprint.insertIgnored h 0 kinds) := by
    refine (Ends.ofExcept (Signature.replaceParams_ends _ _ _ _)).bind fun s spec => ?_
    obtain ⟨-, -, rfl, -⟩ := spec
    exact ⟨rfl, rfl⟩
  obtain ⟨same, program⟩ : d.signature = _ ∧ d.program = _ := Build.of_allocate ignored made
  refine ⟨same, fun host n args lengths => ?_⟩
  have lengths : args.length = signature.arity := by
    rw [lengths, Handle.arity, same]
    rfl
  refine call_of_calling _ program lengths ?_ host n
  have carries : Carries args (Program.slots kinds.length args.length) _ :=
    Carries.slots (Nat.le_refl _)
  rw [List.take_of_length_le (by simp)] at carries
  rw [Nat.zero_add, ← lengths]
  exact carries

/-- A handle with ignored parameters in front, or with none: on the others it does what the handle
does at any depth. -/
theorem call_ignoring {kinds : List Kind} (nonVoid : h.signature.ret.isVoid = false)
    (made : h.dropArguments 0 kinds t = (.ok d, u)) :
    d.signature = ⟨h.signature.ret, kinds ++ h.signature.params⟩ ∧
    ∀ (host : Host) (n : Nat) (before args : List Value) (outcome : Exec Value),
      before.length = kinds.length → args.length = h.arity →
      (∀ m, (runCode host (m + n)).call h args = outcome) →
      (runCode host (n + 1)).call d (before ++ args) = outcome := by
  cases kinds with
  | nil =>
    obtain rfl : d = h := by
      obtain ⟨-, _, -, made⟩ := bind_eq_ok made
      cases made
      rfl
    refine ⟨Signature.ext rfl rfl, fun host n before args outcome none _ calls => ?_⟩
    rw [List.eq_nil_of_length_eq_zero none, Nat.add_comm]
    exact calls 1
  | cons kind rest =>
    obtain ⟨signature, calls⟩ := call_dropArguments (List.cons_ne_nil _ _) made
    refine ⟨signature, fun host n before args outcome ignored own same => ?_⟩
    have whole : (before ++ args).length = d.arity := by
      rw [arity, signature, List.length_append, List.length_append, ignored, own]
      rfl
    have here := same 0
    rw [Nat.zero_add] at here
    rw [calls host n _ whole, ← ignored, List.drop_left, here]
    unfold Kind.kept
    rw [nonVoid]
    exact bind_pure _

/-- A handle that takes its arguments in another order. -/
theorem call_permuteArguments {signature : Signature} {reorder : List Nat}
    (made : Build.allocate (Blueprint.permuteArguments h signature reorder) t = (.ok d, u)) :
    d.signature = signature ∧
    ∀ (host : Host) (n : Nat) (args values : List Value), args.length = d.arity →
      Carries args reorder values →
      (runCode host (n + 1)).call d args = (do
        let result ← (runCode host n).call h values
        return h.signature.ret.kept result) := by
  have permuted : Ends (fun _ => True)
      (fun b => b.signature = signature ∧ b.program = .calling signature.arity [] h reorder)
      (Blueprint.permuteArguments h signature reorder) := by
    unfold Blueprint.permuteArguments
    refine Ends.check trivial fun _ => Ends.check trivial fun _ => ?_
    exact Ends.bind (P := fun _ => True) (Ends.intro (fun _ _ => trivial) fun _ _ => trivial)
      fun _ _ => ⟨rfl, rfl⟩
  obtain ⟨same, program⟩ : d.signature = _ ∧ d.program = _ := Build.of_allocate permuted made
  refine ⟨same, fun host n args values lengths carries => ?_⟩
  refine call_of_calling _ program ?_ carries host n
  rw [lengths, Handle.arity, same]
  rfl

end Handle

/-! How a counted loop is put together. -/

theorem Kind.beq_prim_iff {k : Kind} {p : Prim} : (k == .prim p) = true ↔ k = .prim p := by
  cases k <;> simp [BEq.beq, same]

/-- What was accepted is what was built. -/
theorem Build.of_accept {b : Except Failure Blueprint} {h : Handle} {t u : HandleTable}
    (made : accept b t = (.ok h, u)) : b = .ok ⟨h.signature, h.program⟩ := by
  cases b with
  | ok b =>
    cases made
    rfl
  | error failure => cases made

namespace Handle

variable {kind : Kind} {body h : Handle} {t u : HandleTable}

/-- The functions that are made for a counted loop. Each ignores a part of the frame. -/
structure CountedParts (kind : Kind) (body step increment less : Handle) (fini : Option Handle) :
    Prop where
  less_signature : less.signature = ⟨.bool, .int :: variableKinds kind ++ [.int]⟩
  less : ∀ host n bound v i, (runCode host (n + 3)).call less (bound :: (kind.carried v ++ [i])) =
    pure (.bool (i.isBelow bound))
  increment_signature : increment.signature = ⟨.int, .int :: variableKinds kind ++ [.int]⟩
  increment : ∀ host n bound v i,
    (runCode host (n + 3)).call increment (bound :: (kind.carried v ++ [.int i])) =
      pure (.int (i + 1))
  step_signature : step.signature = ⟨kind, .int :: body.signature.params⟩
  step : ∀ host n bound args, args.length = body.arity →
    (runCode host (n + 1)).call step (bound :: args) = (do
      let w ← (runCode host n).call body args
      return kind.kept w)
  fini : (kind.isVoid = true ∧ fini = none) ∨ ∃ f, kind.isVoid = false ∧ fini = some f ∧
    f.signature = ⟨kind, [.int, kind]⟩ ∧
    ∀ host n bound v, (runCode host (n + 3)).call f [bound, v] = pure v

/-- The comparison takes the bound first and the counter last, and swaps them. -/
theorem call_counterTest {less : Handle} {t' u' : HandleTable}
    (made : Build.accept Blueprint.intLess t = (.ok less, u))
    (permuted : Build.allocate (Blueprint.permuteArguments less
      ⟨.bool, .int :: variableKinds kind ++ [.int]⟩ [1 + (variableKinds kind).length, 0]) t' =
        (.ok h, u')) (host : Host) (n : Nat) (bound v i : Value) :
    (runCode host (n + 3)).call h (bound :: (kind.carried v ++ [i])) =
      pure (.bool (i.isBelow bound)) := by
  obtain ⟨signature, calls⟩ := call_permuteArguments permuted
  have lengths : (bound :: (kind.carried v ++ [i])).length = h.arity := by
    rw [arity, signature]
    simp [Kind.carried_length]
  have last : (bound :: (kind.carried v ++ [i]))[1 + (variableKinds kind).length]? = some i := by
    rw [Nat.add_comm, List.getElem?_cons_succ, ← kind.carried_length v, List.getElem?_concat_length]
  obtain ⟨own, compares⟩ := call_intLess made
  rw [calls host (n + 2) _ [i, bound] lengths (.cons last (.cons rfl .nil)), compares, pure_bind,
    own]
  rfl

/-- The increment of the last argument. -/
theorem call_incrementLast {increment : Handle} {kinds : List Kind} {t' u' : HandleTable}
    (made : Build.accept Blueprint.intIncrement t = (.ok increment, u))
    (dropped : increment.dropArguments 0 kinds t' = (.ok h, u')) :
    h.signature = ⟨.int, kinds ++ [.int]⟩ ∧
    ∀ host n before i, before.length = kinds.length →
      (runCode host (n + 3)).call h (before ++ [.int i]) = pure (.int (i + 1)) := by
  obtain ⟨own, increments⟩ := call_intIncrement made
  have nonVoid : increment.signature.ret.isVoid = false := by rw [own]; rfl
  obtain ⟨signature, ignores⟩ := call_ignoring nonVoid dropped
  rw [own] at signature
  refine ⟨signature, fun host n before i lengths => ?_⟩
  exact ignores host (n + 2) before [.int i] _ lengths (by rw [arity, own]; rfl)
    fun m => increments host (m + n) i

/-- A handle that ignores its first argument. -/
theorem call_dropFirst {first : Kind} (dropped : body.dropArguments 0 [first] t = (.ok h, u)) :
    h.signature = ⟨body.signature.ret, first :: body.signature.params⟩ ∧
    ∀ host n v args, args.length = body.arity →
      (runCode host (n + 1)).call h (v :: args) = (do
        let w ← (runCode host n).call body args
        return body.signature.ret.kept w) := by
  obtain ⟨signature, calls⟩ := call_dropArguments (List.cons_ne_nil _ _) dropped
  refine ⟨signature, fun host n v args lengths => calls host n (v :: args) ?_⟩
  rw [arity, signature, List.length_cons, lengths]
  rfl

/-- The result is the variable, unless it is `void`. -/
theorem call_returning {skipped : List Kind} {fini : Option Handle}
    (made : returning kind skipped t = (.ok fini, u)) :
    (kind.isVoid = true ∧ fini = none) ∨ ∃ f, kind.isVoid = false ∧ fini = some f ∧
      f.signature = ⟨kind, skipped ++ [kind]⟩ ∧
      ∀ host n before v, before.length = skipped.length →
        (runCode host (n + 3)).call f (before ++ [v]) = pure v := by
  unfold returning at made
  cases void : kind.isVoid with
  | true =>
    rw [void] at made
    cases made
    exact .inl ⟨rfl, rfl⟩
  | false =>
    rw [void] at made
    obtain ⟨same, _, identity, made⟩ := bind_eq_ok made
    obtain ⟨f, _, dropped, made⟩ := bind_eq_ok made
    cases made
    obtain ⟨own, keeps⟩ := call_identity identity
    have kept : ∀ v, kind.kept v = v := by
      intro v
      rw [Kind.kept, void]
      rfl
    have nonVoid : same.signature.ret.isVoid = false := by rw [own, void]
    obtain ⟨signature, ignores⟩ := call_ignoring nonVoid dropped
    rw [own] at signature
    refine .inr ⟨f, rfl, rfl, signature, fun host n before v lengths => ?_⟩
    refine ignores host (n + 2) before [v] _ lengths (by rw [arity, own]; rfl) fun m => ?_
    exact (keeps host (m + (n + 1)) v).trans (by rw [kept])

/-- What a counted loop is made of, once it is accepted. -/
theorem countedLoopRange_eq_ok {start stop : Handle} {init : Option Handle}
    (built : countedLoopRange start stop init body t = (.ok h, u)) :
    stop.signature.ret = .int ∧
    body.signature.startsWith (variableKinds body.signature.ret ++ [.int]) = true ∧
    ∃ step increment less fini, CountedParts body.signature.ret body step increment less fini ∧
      Blueprint.loop (LoopPlan.countedClauses start stop step increment less init fini) =
        .ok ⟨h.signature, h.program⟩ := by
  unfold countedLoopRange at built
  cases bounds : [start, stop].find? (·.signature.ret != .int) with
  | some bound =>
    rw [bounds] at built
    cases built
  | none =>
    rw [bounds] at built
    dsimp only at built
    have int : (stop.signature.ret == .int) = true := by
      simpa [bne] using List.find?_eq_none.1 bounds stop (by simp)
    split at built
    · obtain ⟨_, _, -, built⟩ := bind_eq_ok built
      cases built
    next leads =>
    refine ⟨Kind.beq_prim_iff.1 int, by simpa using leads, ?_⟩
    obtain ⟨less, _, makesLess, built⟩ := bind_eq_ok built
    obtain ⟨tested, _, makesTested, built⟩ := bind_eq_ok built
    obtain ⟨test, _, makesTest, built⟩ := bind_eq_ok built
    obtain ⟨increment, _, makesIncrement, built⟩ := bind_eq_ok built
    obtain ⟨counter, _, makesCounter, built⟩ := bind_eq_ok built
    obtain ⟨step, _, makesStep, built⟩ := bind_eq_ok built
    obtain ⟨fini, _, makesFini, built⟩ := bind_eq_ok built
    have same : tested = ⟨.bool, .int :: variableKinds body.signature.ret ++ [.int]⟩ :=
      ((Signature.make_ends _ _).of_eq_ok
        (Checked.ofExcept_eq_ok (congrArg Prod.fst makesTested))).1
    rw [same] at makesTest
    obtain ⟨counter_signature, counts⟩ := call_incrementLast makesIncrement makesCounter
    obtain ⟨step_signature, steps⟩ := call_dropFirst makesStep
    have increments : ∀ host n bound v i,
        (runCode host (n + 3)).call counter
            (bound :: (body.signature.ret.carried v ++ [.int i])) = pure (.int (i + 1)) :=
      fun host n bound v i => counts host n (bound :: body.signature.ret.carried v) i
        (congrArg Nat.succ (Kind.carried_length _ v))
    refine ⟨step, counter, test, fini, ?_, Build.of_accept built⟩
    exact ⟨(call_permuteArguments makesTest).1, call_counterTest makesLess makesTest,
      counter_signature, increments, step_signature, steps,
      (call_returning makesFini).imp_right fun ⟨f, nonVoid, found, signature, returns⟩ =>
        ⟨f, nonVoid, found, signature, fun host n bound v => returns host n [bound] v rfl⟩⟩

end Handle

namespace LoopPlan

variable {kind : Kind} {body start stop step increment less : Handle} {init fini : Option Handle}

/-- The clauses of a counted loop carry the bound, the variable and the counter. -/
theorem countedClauses_layout (start less : Handle) (init : Option Handle)
    (bound : stop.signature.ret = .int)
    (parts : Handle.CountedParts kind body step increment less fini) :
    carriedKinds (countedClauses start stop step increment less init fini) =
        .int :: (Handle.variableKinds kind ++ [.int]) ∧
      assignSlots 0 (countedClauses start stop step increment less init fini) =
        countedSlots kind := by
  have stepped := parts.step_signature
  have counted := parts.increment_signature
  have int : Kind.int.isVoid = false := rfl
  unfold countedSlots Handle.variableKinds carriedKinds countedClauses
  simp only [List.map_cons, List.map_nil, assignSlots, LoopClause.variableKind, bound, stepped,
    counted]
  cases void : kind.isVoid <;> simp [void, int]

/-- A counted loop yields its variable. -/
theorem countedClauses_result {outer : List Kind} {result : Option Nat}
    (parts : Handle.CountedParts kind body step increment less fini)
    (accepted : Accepted (countedClauses start stop step increment less init fini) outer result) :
    result = (if kind.isVoid then none else some 1) ∧
      resultKind (countedClauses start stop step increment less init fini) result = kind := by
  obtain ⟨frameSignature, chosen⟩ := accepted.chosen
  obtain ⟨void, rfl⟩ | ⟨f, nonVoid, rfl, signature, -⟩ := parts.fini
  · cases chosen
    rw [void]
    exact ⟨rfl, (Kind.isVoid_iff.1 void).symm⟩
  · have yields : f.signature.returnsVoid = false := by
      rw [Signature.returnsVoid, signature]
      exact nonVoid
    simp only [countedClauses, chooseResults, chooseResult, yields] at chosen
    cases chosen
    rw [nonVoid]
    exact ⟨rfl, congrArg Signature.ret signature⟩

theorem onLeading_of_le {call : Caller} {f : Handle} {values : List Value}
    (enough : f.arity ≤ values.length) :
    onLeading call f values = call f (values.take f.arity) := by
  rw [onLeading, leading_of_le enough, pure_bind]

/-- What the body of a counted loop is called on. -/
def countedArguments (body : Handle) (args : List Value) (v : Value) (i : Int32) : List Value :=
  let carried := body.signature.ret.carried v
  carried ++ .int i :: args.take (body.arity - carried.length - 1)

/-- The functions of a counted loop do on its frames what they are made for. -/
theorem counts_of_parts {args : List Value}
    (parts : Handle.CountedParts body.signature.ret body step increment less fini)
    (leads : body.signature.startsWith (Handle.variableKinds body.signature.ret ++ [.int]) = true)
    (within : body.arity ≤ args.length + (Handle.variableKinds body.signature.ret).length + 1)
    (host : Host) (n : Nat) :
    Counts (runCode host (n + 3)).call body.signature.ret args
      (fun v i => (runCode host (n + 2)).call body (countedArguments body args v i))
      step increment less fini := by
  have least : (Handle.variableKinds body.signature.ret).length + 1 ≤ body.arity := by
    simpa [Handle.arity] using length_le_of_isPrefixOf leads
  have lengths := countedFrame_length body.signature.ret args
  have takes := countedFrame_take body.signature.ret args
  have less_arity : less.arity = 0 + (Handle.variableKinds body.signature.ret).length + 2 := by
    rw [Handle.arity, parts.less_signature]
    simp
  have increment_arity :
      increment.arity = 0 + (Handle.variableKinds body.signature.ret).length + 2 := by
    rw [Handle.arity, parts.increment_signature]
    simp
  constructor
  case less =>
    intro bound v i
    rw [onLeading_of_le (by rw [lengths]; omega), less_arity, takes]
    exact parts.less host n bound v i
  case increment =>
    intro bound v i
    rw [onLeading_of_le (by rw [lengths]; omega), increment_arity, takes]
    exact parts.increment host n bound v i
  case step =>
    intro bound v i
    let count := body.arity - (body.signature.ret.carried v).length - 1
    have beyond : body.arity = count + (Handle.variableKinds body.signature.ret).length + 1 := by
      simp only [count, Kind.carried_length]
      omega
    have step_arity :
        step.arity = count + (Handle.variableKinds body.signature.ret).length + 2 := by
      rw [Handle.arity, parts.step_signature]
      exact congrArg Nat.succ beyond
    rw [onLeading_of_le (by rw [lengths]; omega), step_arity, takes]
    refine parts.step host (n + 2) bound _ ?_
    simp only [List.length_append, List.length_cons, List.length_take, Kind.carried_length]
    omega
  case fini =>
    obtain ⟨void, rfl⟩ | ⟨f, nonVoid, rfl, signature, returns⟩ := parts.fini
    · exact void
    · refine ⟨nonVoid, fun bound v i => ?_⟩
      have arity : f.arity = 2 := by
        rw [Handle.arity, signature]
        rfl
      have front : (countedFrame body.signature.ret args bound v i).take 2 = [bound, v] := by
        simp [countedFrame, Kind.carried, nonVoid]
      rw [onLeading_of_le (by rw [lengths]; omega), arity, front]
      exact returns host n bound v

end LoopPlan

namespace Handle

variable {h start stop body step increment less : Handle} {init fini : Option Handle}
  {t u : HandleTable}

/-- A handle returns what a body returns, and what it calls takes leading arguments of it. The body
takes its variable and a number ahead of them. -/
structure FitsBody (h stop : Handle) (init : Option Handle) (body : Handle) : Prop where
  ret : h.signature.ret = body.signature.ret
  stop_leads : stop.signature.params.isPrefixOf h.signature.params = true
  init_leads : ∀ f, init = some f → f.signature.params.isPrefixOf h.signature.params = true
  body_leads : body.signature.params.isPrefixOf
    (variableKinds body.signature.ret ++ .int :: h.signature.params) = true

/-- A handle is the counted loop of some functions. -/
structure IsCountedLoop (h start stop : Handle) (init : Option Handle)
    (body step increment less : Handle) (fini : Option Handle) : Prop
    extends FitsBody h stop init body where
  parts : CountedParts body.signature.ret body step increment less fini
  leads : body.signature.startsWith (variableKinds body.signature.ret ++ [.int]) = true
  start_leads : start.signature.params.isPrefixOf h.signature.params = true
  program : h.program = .single h.signature (.loop (LoopPlan.countedPlan body.signature.ret
    (.int :: (variableKinds body.signature.ret ++ [.int])) start stop step increment less init
    fini))

/-- What was accepted as a counted loop is one. -/
theorem isCountedLoop (built : countedLoopRange start stop init body t = (.ok h, u)) :
    ∃ step increment less fini, h.IsCountedLoop start stop init body step increment less fini := by
  obtain ⟨stop_ret, leads, step, increment, less, fini, parts, made⟩ :=
    countedLoopRange_eq_ok built
  refine ⟨step, increment, less, fini, ?_⟩
  obtain ⟨outer, result, accepted, same⟩ := (Blueprint.loop_accepted _).of_eq_ok made
  obtain ⟨carried, slots⟩ := LoopPlan.countedClauses_layout start less init stop_ret parts
  obtain ⟨rfl, ret⟩ := LoopPlan.countedClauses_result parts accepted
  have signature : h.signature = ⟨body.signature.ret, outer⟩ := by
    rw [← ret]
    exact congrArg Blueprint.signature same
  obtain rfl : h.signature.params = outer := congrArg Signature.params signature
  have fits := accepted.fits
  rw [carried] at fits
  simp only [LoopPlan.countedClauses, List.forall_mem_cons] at fits
  obtain ⟨ofStop, ofBody, ofStart, -⟩ := fits
  have step_leads := ofBody.body step (by simp [LoopClause.bodyFunctions])
  rw [parts.step_signature, List.cons_append, List.isPrefixOf, Bool.and_eq_true,
    List.append_assoc] at step_leads
  have program : h.program = .single h.signature (.loop (LoopPlan.countedPlan body.signature.ret
      (.int :: (variableKinds body.signature.ret ++ [.int])) start stop step increment less init
      fini)) := by
    rw [LoopPlan.countedPlan, ← carried, ← slots]
    exact (congrArg Blueprint.program same).trans
      (congrArg (Program.single · _) (congrArg Blueprint.signature same).symm)
  exact ⟨⟨by rw [signature], ofStop.init stop rfl, ofBody.init, step_leads.2⟩, parts, leads,
    ofStart.init start rfl, program⟩

/-- A counted loop runs its body as a bounded loop does. -/
theorem IsCountedLoop.invokeExact
    (counted : h.IsCountedLoop start stop init body step increment less fini) (host : Host)
    {n : Nat} {args : List Value} (enough : Int32.size ≤ n)
    (conform : Conform args h.signature.params) :
    h.invokeExact (runCode host (n + 2)) args =
      boundedLoop body.signature.ret ((runCode host (n + 1)).front stop args)
        (init.elim (pure (.zero body.signature.ret)) ((runCode host (n + 1)).front · args))
        ((runCode host (n + 1)).front start args)
        fun v i =>
          (runCode host n).call body (LoopPlan.countedArguments body args v (.ofInt i)) := by
  have lengths : args.length = h.signature.arity := conform.length_eq
  -- The comparison and the increment need two levels of their own below the loop.
  obtain ⟨m, rfl⟩ : ∃ m, n = m + 2 :=
    Nat.exists_eq_add_of_le' (Nat.le_trans (show 2 ≤ Int32.size by decide) enough)
  have reach : ∀ {f : Handle}, f.signature.params.isPrefixOf h.signature.params = true →
      LoopPlan.onLeading (runCode host (m + 3)).call f args =
        (runCode host (m + 3)).front f args := fun leads =>
    LoopPlan.onLeading_of_le (conform.length_eq ▸ length_le_of_isPrefixOf leads)
  have within : body.arity ≤
      args.length + (variableKinds body.signature.ret).length + 1 := by
    have within := length_le_of_isPrefixOf counted.body_leads
    rw [List.length_append, List.length_cons, ← conform.length_eq] at within
    unfold arity
    omega
  have counts := LoopPlan.counts_of_parts counted.parts counted.leads within host m
  have zero : body.signature.ret.isVoid = false →
      (Kind.int :: (variableKinds body.signature.ret ++ [.int]))[1]? =
        some body.signature.ret := by
    intro nonVoid
    simp [variableKinds, nonVoid]
  rw [invokeExact_of_conform _ conform]
  show h.program.perform (runCode host (m + 3)) (m + 3) args = _
  rw [counted.program, Program.single_perform lengths]
  unfold Step.perform
  dsimp only
  rw [Step.gather_all lengths, pure_bind, counts.run zero (Nat.le_succ_of_le enough), counted.ret,
    boundedLoop_kept, reach counted.start_leads, reach counted.stop_leads]
  cases init with
  | none => rfl
  | some f =>
    simp only [Option.elim_some, reach (counted.init_leads f rfl)]

/-- A handle loops over a body from a first number up to a bound. No loop goes through more rounds
than there are numbers, so a depth of that many cuts none off. -/
structure LoopsOver (h stop : Handle) (init : Option Handle) (body : Handle)
    (first : Runner → List Value → Exec Value) : Prop extends FitsBody h stop init body where
  runs : ∀ host n args, Int32.size ≤ n → Conform args h.signature.params →
    let run := runCode host (n + 1)
    h.invokeExact (runCode host (n + 2)) args =
      boundedLoop body.signature.ret (run.front stop args)
        (init.elim (pure (.zero body.signature.ret)) (run.front · args)) (first run args)
        fun v i => (runCode host n).call body (LoopPlan.countedArguments body args v (.ofInt i))

theorem IsCountedLoop.loopsOver
    (counted : h.IsCountedLoop start stop init body step increment less fini) :
    h.LoopsOver stop init body fun run args => run.front start args :=
  ⟨counted.toFitsBody, fun host _ _ enough conform => counted.invokeExact host enough conform⟩

/-- The constant that a counted loop starts from. -/
theorem front_zero {zero : Handle}
    (made : Build.accept (Blueprint.constant .int (.int 0)) t = (.ok zero, u)) (host : Host)
    (n : Nat) (args : List Value) :
    (runCode host (n + 1)).front zero args = pure (.int 0) := by
  cases made
  rfl

/-- A counted loop is a bounded loop. The bound is computed once and first, then the variable, then
the first number; then the body runs for each number from the first one up to the bound, in
increasing order, and what it returns is the variable of the next round and in the end the result.
Every number that is counted stands for itself: there are as many as the integers between the first
one and the bound, also where the difference is no 32-bit number, and the counter never wraps. -/
theorem counted_loops_bounded :
    (∀ start, countedLoopRange start stop init body t = (.ok h, u) →
      start.signature.params.isPrefixOf h.signature.params = true ∧
        h.LoopsOver stop init body fun run args => run.front start args) ∧
    (countedLoop stop init body t = (.ok h, u) →
      h.LoopsOver stop init body fun _ _ => pure (.int 0)) ∧
    ∀ first bound : Int32,
      (Value.int first).upTo (.int bound) =
        (List.range (bound.toInt - first.toInt).toNat).map (fun k : Nat => first.toInt + k) ∧
      ∀ i ∈ (Value.int first).upTo (.int bound), (Int32.ofInt i).toInt = i := by
  refine ⟨fun start built => ?_, fun built => ?_, fun first bound => ⟨rfl, fun i mem => ?_⟩⟩
  · obtain ⟨_, _, _, _, counted⟩ := isCountedLoop built
    exact ⟨counted.start_leads, counted.loopsOver⟩
  · obtain ⟨zero, _, made, built⟩ := bind_eq_ok built
    obtain ⟨_, _, _, _, counted⟩ := isCountedLoop built
    refine { counted.loopsOver with runs := fun host n args enough conform => ?_ }
    rw [counted.invokeExact host enough conform, front_zero made]
  · exact toInt_ofInt_of_mem_range mem

end Handle

/-- A host that goes from the least number to the second one after it, and adds its arguments in
each round. -/
def Host.adding : Host := fun f args =>
  match f.id with
  | 0 => .value (.int Int32.minValue)
  | 1 => .value (.int (Int32.minValue + 2))
  | _ => .value (.int ((args.filterMap Value.int?).foldl (· + ·) 0))

theorem Handle.counted_loops_bounded_least :
    let start := Handle.ofHost 0 ⟨.int, []⟩
    let stop := Handle.ofHost 1 ⟨.int, []⟩
    let body := Handle.ofHost 2 ⟨.int, [.int, .int, .int]⟩
    ∃ h t, start.countedLoopRange stop none body .empty = (.ok h, t) ∧
      Conform [.int 5] h.signature.params ∧
      (h.invokeExact (runCode .adding (Int32.size + 8 + 2)) [.int 5] .empty).1 = .ok (.int 11) := by
  intro start stop body
  have built : start.countedLoopRange stop none body .empty = (.ok _, _) := rfl
  have conform : Conform [.int 5] [.int] := .cons rfl .nil
  have runs : ∀ n, (boundedLoop .int ((runCode .adding (n + 8 + 1)).front stop [.int 5])
      (pure (.int 0)) ((runCode .adding (n + 8 + 1)).front start [.int 5])
      (fun v i => (runCode .adding (n + 8)).call body
        (LoopPlan.countedArguments body [.int 5] v (.ofInt i))) .empty).1 = .ok (.int 11) :=
    fun _ => rfl
  obtain ⟨-, loops⟩ := Handle.counted_loops_bounded.1 start built
  refine ⟨_, _, built, conform, ?_⟩
  rw [loops.runs .adding (Int32.size + 8) _ (Nat.le_add_right _ _) conform]
  exact runs Int32.size

end TypedHandles
