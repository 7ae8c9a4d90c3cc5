import TypedHandles.Proofs.Depths

/-!
While loops, with the test ahead of each round or behind it. Both keep one variable and run the same
functions on it; where the body comes first, a flag ahead of the variable lets the first test pass
without asking.
-/
namespace TypedHandles

/-! What while loops compute. -/

namespace WhileLoop

variable (init : Option Handle) (pred body : Handle) (run : Runner) (args : List Value)

/-- The variable before the first round: what the init returns, else zero. -/
def start : Exec Value := do
  let v ← init.elim (pure (.zero body.signature.ret)) (run.front · args)
  return body.signature.ret.kept v

/-- Whether another round runs. -/
def holds (v : Value) : Exec Bool := do
  let outcome ← run.front pred (body.signature.ret.carried v ++ args)
  return outcome.bool?.getD false

/-- The variable after a round. -/
def next (v : Value) : Exec Value := do
  let w ← run.front body (body.signature.ret.carried v ++ args)
  return body.signature.ret.kept w

end WhileLoop

/-! One variable. -/

namespace Kind

variable (kind : Kind) (v : Value)

theorem carried_kept : kind.carried (kind.kept v) = kind.carried v := by
  unfold carried kept
  cases kind.isVoid <;> rfl

end Kind

namespace NamedLoop

variable {c : LoopClause} {kind : Kind} (same : c.variableKind = kind)

include same

theorem visible_single (k : Nat) (vars : Variables) :
    visible [(c, k)] vars = kind.carried (vars k) := by
  rw [visible_cons]
  unfold LoopClause.hasVariable Kind.carried
  rw [same]
  cases kind.isVoid <;> rfl

theorem kept_assign (k : Nat) (v : Value) (vars : Variables) :
    kind.kept (assign (c, k) v vars k) = kind.kept v := by
  unfold assign LoopClause.hasVariable Kind.kept
  rw [same]
  cases kind.isVoid with
  | true => rfl
  | false => simp only [Bool.not_false, if_true, Function.update_self]

omit same

theorem allHold_single (run : Runner) (frame : List Value) (pred : Handle) :
    allHold run frame [pred] = (do
      let outcome ← run.front pred frame
      return outcome.bool?.getD false) := by
  unfold allHold
  refine bind_congr fun outcome => ?_
  cases outcome.bool?.getD false <;> rfl

/-- A loop of one clause tests, runs and returns its variable. -/
theorem perform_single {run : Runner} {args : List Value} {init fini : Option Handle}
    {pred body : Handle}
    (returns : ∀ v, finish run (body.signature.ret.carried v ++ args) fini.toList =
      pure (body.signature.ret.kept v)) (limit : Nat) :
    perform run args [⟨init, some body, some pred, fini⟩] limit = (do
      let v ← WhileLoop.start init body run args
      Exec.repeatWhile (WhileLoop.holds pred body run args) (WhileLoop.next body run args) pure
        limit v) := by
  let c : LoopClause := ⟨init, some body, some pred, fini⟩
  have kind : c.variableKind = body.signature.ret := rfl
  let view (vars : Variables) : Value := body.signature.ret.kept (vars 0)
  have sees : ∀ vars, visible [(c, 0)] vars = body.signature.ret.carried (view vars) := by
    intro vars
    rw [visible_single kind, ← Kind.carried_kept]
  have rounds : ∀ vars, Exec.repeatWhile
      (fun vars => allHold run (visible [(c, 0)] vars ++ args) [pred])
      (fun vars => [(c, 0)].foldlM (step run args [(c, 0)]) vars)
      (fun vars => finish run (visible [(c, 0)] vars ++ args) fini.toList) limit vars =
        Exec.repeatWhile (WhileLoop.holds pred body run args) (WhileLoop.next body run args) pure
          limit (view vars) := by
    intro vars
    refine (Exec.repeatWhile_view view (fun vars => ?_) (fun vars => ?_) (fun vars => ?_) limit
      vars).symm
    · rw [sees, allHold_single]
      rfl
    · rw [List.foldlM_cons, step_of_some rfl, sees]
      unfold WhileLoop.next
      simp only [bind_assoc, pure_bind, List.foldlM_nil, view, kept_assign kind]
    · rw [sees, returns, Kind.kept_kept]
  have starts : NamedLoop.start run args [(c, 0)] = (do
      let v ← initial run args c
      return assign (c, 0) v fun _ => .void) := by
    simp [NamedLoop.start]
  have first : initial run args c =
      init.elim (pure (.zero body.signature.ret)) (run.front · args) := by
    cases init <;> rfl
  have finis : [c].filterMap (·.fini) = fini.toList := by cases fini <;> rfl
  calc perform run args [c] limit
    _ = NamedLoop.start run args [(c, 0)] >>= fun vars =>
        Exec.repeatWhile (WhileLoop.holds pred body run args) (WhileLoop.next body run args) pure
          limit (view vars) := by
      unfold perform
      rw [finis]
      exact bind_congr rounds
    _ = _ := by
      unfold WhileLoop.start
      simp only [starts, first, bind_assoc, pure_bind, view, kept_assign kind]

/-- What the functions of a loop with a flag do on its frames. The flag starts as set and is cleared
in each round. -/
structure Flags (run deeper deepest : Runner) (args : List Value) (pred body yes no step checked :
    Handle) (fini : Option Handle) : Prop where
  yes : run.front yes args = pure (.bool true)
  no_ret : no.signature.ret = .bool
  no : ∀ frame, run.front no frame = pure (.bool false)
  step_ret : step.signature.ret = body.signature.ret
  step : ∀ flag v, run.front step (flag :: (body.signature.ret.carried v ++ args)) =
    WhileLoop.next body deeper args v
  checked : ∀ flag v, (do
    let outcome ← run.front checked (flag :: (body.signature.ret.carried v ++ args))
    return outcome.bool?.getD false) =
      if flag.bool?.getD false then pure true else WhileLoop.holds pred body deepest args v
  fini : ∀ flag v, finish run (flag :: (body.signature.ret.carried v ++ args)) fini.toList =
    pure (body.signature.ret.kept v)

/-- A loop with a flag runs its body once and goes on as a loop without one. -/
theorem perform_flagged {run deeper deepest : Runner} {args : List Value}
    {init fini : Option Handle} {pred body yes no step checked : Handle}
    (flags : Flags run deeper deepest args pred body yes no step checked fini) (limit : Nat) :
    perform run args [⟨some yes, some no, none, none⟩, ⟨init, some step, some checked, fini⟩]
        (limit + 1) = (do
      let v ← WhileLoop.start init body run args
      let w ← WhileLoop.next body deeper args v
      Exec.repeatWhile (WhileLoop.holds pred body deepest args)
        (WhileLoop.next body deeper args) pure limit w) := by
  let a : LoopClause := ⟨some yes, some no, none, none⟩
  let c : LoopClause := ⟨init, some step, some checked, fini⟩
  have flag : a.variableKind = .bool := flags.no_ret
  have kind : c.variableKind = body.signature.ret := flags.step_ret
  let view (vars : Variables) : Bool × Value :=
    ((vars 0).bool?.getD false, body.signature.ret.kept (vars 1))
  have sees : ∀ vars, visible [(a, 0), (c, 1)] vars =
      vars 0 :: body.signature.ret.carried (body.signature.ret.kept (vars 1)) := by
    intro vars
    rw [Kind.carried_kept, ← visible_single kind]
    exact (visible_append [(a, 0)] [(c, 1)] vars).trans (by rw [visible_single flag]; rfl)
  have set : ∀ b vars, view (assign (a, 0) (.bool b) vars) =
      (b, body.signature.ret.kept (vars 1)) := by
    intro b vars
    have own : assign (a, 0) (.bool b) vars 0 = .bool b := kept_assign flag 0 (.bool b) vars
    have other : assign (a, 0) (.bool b) vars 1 = vars 1 := assign_of_ne (by simp) _ vars
    simp only [view, own, other]
    rfl
  have stored : ∀ w vars, view (assign (c, 1) w vars) =
      ((view vars).1, body.signature.ret.kept w) := by
    intro w vars
    have other : assign (c, 1) w vars 0 = vars 0 := assign_of_ne (by simp) _ vars
    simp only [view, other, kept_assign kind]
  let test (p : Bool × Value) : Exec Bool :=
    if p.1 then pure true else WhileLoop.holds pred body deepest args p.2
  let next (p : Bool × Value) : Exec (Bool × Value) := do
    return (false, ← WhileLoop.next body deeper args p.2)
  have rounds : ∀ limit vars, Exec.repeatWhile
      (fun vars => allHold run (visible [(a, 0), (c, 1)] vars ++ args) [checked])
      (fun vars => [(a, 0), (c, 1)].foldlM (NamedLoop.step run args [(a, 0), (c, 1)]) vars)
      (fun vars => finish run (visible [(a, 0), (c, 1)] vars ++ args) fini.toList) limit vars =
        Exec.repeatWhile test next (fun p => pure p.2) limit (view vars) := by
    intro limit vars
    refine (Exec.repeatWhile_view view (fun vars => ?_) (fun vars => ?_) (fun vars => ?_) limit
      vars).symm
    · rw [sees, allHold_single]
      exact (flags.checked _ _).symm
    · rw [List.foldlM_cons, step_of_some (show a.step = some no from rfl), flags.no, pure_bind,
        pure_bind, List.foldlM_cons, step_of_some (show c.step = some step from rfl), sees,
        List.cons_append, flags.step, assign_of_ne (by simp)]
      unfold next WhileLoop.next
      simp only [bind_assoc, pure_bind, List.foldlM_nil, stored, set, Kind.kept_kept]
      rfl
    · rw [sees]
      exact ((flags.fini _ _).trans (congrArg pure (Kind.kept_kept _ _))).symm
  let begun : Exec (Bool × Value) := do
    return view (← NamedLoop.start run args [(a, 0), (c, 1)])
  have begins : begun = (do return (true, ← WhileLoop.start init body run args)) := by
    have first : initial run args c =
        init.elim (pure (.zero body.signature.ret)) (run.front · args) := by
      rw [← kind]
      cases init <;> rfl
    have yes : initial run args a = pure (.bool true) := flags.yes
    unfold begun WhileLoop.start
    simp only [NamedLoop.start, yes, first, bind_assoc, pure_bind, set, kept_assign kind]
  have cleared : ∀ w, Exec.repeatWhile test next (fun p => pure p.2) limit (false, w) =
      Exec.repeatWhile (WhileLoop.holds pred body deepest args)
        (WhileLoop.next body deeper args) pure limit w :=
    Exec.repeatWhile_view (fun w => (false, w)) (fun _ => rfl) (fun _ => rfl) (fun _ => rfl) limit
  have finis : [a, c].filterMap (·.fini) = fini.toList := by cases fini <;> rfl
  calc perform run args [a, c] (limit + 1)
    _ = begun >>= Exec.repeatWhile test next (fun p => pure p.2) (limit + 1) := by
      unfold perform begun
      rw [finis, bind_assoc]
      simp only [pure_bind]
      exact bind_congr (rounds (limit + 1))
    _ = _ := by
      rw [begins]
      simp only [bind_assoc, pure_bind]
      refine bind_congr fun v => ?_
      -- The flag is set, so the first round runs without a test.
      conv_lhs => unfold Exec.repeatWhile
      simp only [test, next, if_true, bind_assoc, pure_bind, cleared]

end NamedLoop

/-! The functions of while loops. -/

namespace Handle

variable {h : Handle} {t u : HandleTable}

/-- A guard calls one of its handles, by a test of the leading arguments. -/
theorem call_branching {test target fallback : Handle}
    (made : Build.allocate (Blueprint.branching test target fallback) t = (.ok h, u)) :
    h.signature = target.signature ∧ (fallback.signature == target.signature) = true ∧
    ∀ (host : Host) (n : Nat) (args : List Value), args.length = h.arity →
      (runCode host (n + 1)).call h args = (do
        let outcome ← (runCode host n).front test args
        let v ← if outcome.bool?.getD false then (runCode host n).call target args
          else (runCode host n).call fallback args
        return target.signature.ret.kept v) := by
  have guarded : Ends (fun _ => True) (fun b => b.signature = target.signature ∧
      b.program = .single target.signature (.branch test target fallback) ∧
      (fallback.signature == target.signature) = true ∧ test.arity ≤ target.arity)
      (Blueprint.branching test target fallback) := by
    unfold Blueprint.branching
    refine Ends.check trivial fun same => Ends.check trivial fun _ => Ends.check trivial
      fun leading => ⟨rfl, rfl, by simpa [bne] using same, ?_⟩
    exact length_le_of_isPrefixOf (by simpa [Signature.startsWith] using leading)
  obtain ⟨signature, program, same, leads⟩ := Build.of_allocate guarded made
  refine ⟨signature, same, fun host n args lengths => ?_⟩
  have lengths : args.length = target.signature.arity := by
    rw [lengths, arity]
    exact congrArg Signature.arity signature
  have enough : test.arity ≤ args.length := lengths ▸ leads
  show h.program.perform (runCode host n) n args = _
  rw [show h.program = _ from program, Program.single_perform lengths]
  unfold Step.perform Step.runBranch
  dsimp only
  rw [Step.gather_all lengths, pure_bind, leading_of_le enough, pure_bind]
  simp only [bind_assoc]
  refine bind_congr fun outcome => ?_
  cases outcome.bool?.getD false <;> rfl

theorem call_constant {value : Bool}
    (made : Build.accept (Blueprint.constant .bool (.bool value)) t = (.ok h, u)) :
    h.signature = ⟨.bool, []⟩ ∧
    ∀ (host : Host) (n : Nat) (args : List Value),
      (runCode host (n + 1)).front h args = pure (.bool value) := by
  cases made
  exact ⟨rfl, fun _ _ _ => rfl⟩

/-- The functions that are made for a loop with a flag, which is what each of them takes first. -/
structure FlaggedParts (pred body yes no step checked : Handle) : Prop where
  yes_signature : yes.signature = ⟨.bool, []⟩
  yes : ∀ host n args, (runCode host (n + 1)).front yes args = pure (.bool true)
  no_signature : no.signature = ⟨.bool, []⟩
  no : ∀ host n args, (runCode host (n + 1)).front no args = pure (.bool false)
  step_signature : step.signature = ⟨body.signature.ret, .bool :: body.signature.params⟩
  step : ∀ host n flag args, args.length = body.arity →
    (runCode host (n + 1)).call step (flag :: args) = (do
      let w ← (runCode host n).call body args
      return body.signature.ret.kept w)
  checked_signature : checked.signature = ⟨.bool, .bool :: pred.signature.params⟩
  checked : ∀ host n flag args, args.length = pred.arity →
    (runCode host (n + 3)).call checked (flag :: args) =
      if flag.bool?.getD false then pure (.bool true) else (runCode host (n + 1)).call pred args

/-- What a do-while loop is made of, once it is accepted. -/
theorem doWhileLoop_eq_ok {init : Option Handle} {body pred : Handle}
    (built : doWhileLoop init body pred t = (.ok h, u)) :
    ∃ yes no step checked fini t₁ u₁ t₂, FlaggedParts pred body yes no step checked ∧
      returning body.signature.ret [.bool] t₁ = (.ok fini, u₁) ∧
      loop [⟨some yes, some no, none, none⟩, ⟨init, some step, some checked, fini⟩] t₂ =
        (.ok h, u) := by
  obtain ⟨yes, _, makesYes, built⟩ := bind_eq_ok built
  obtain ⟨no, _, makesNo, built⟩ := bind_eq_ok built
  obtain ⟨pred', _, makesPred, built⟩ := bind_eq_ok built
  obtain ⟨constantly, _, makesConstant, built⟩ := bind_eq_ok built
  obtain ⟨always, _, makesAlways, built⟩ := bind_eq_ok built
  obtain ⟨test, _, makesFlag, built⟩ := bind_eq_ok built
  obtain ⟨checked, _, makesChecked, built⟩ := bind_eq_ok built
  obtain ⟨step, _, makesStep, built⟩ := bind_eq_ok built
  obtain ⟨fini, _, makesFini, built⟩ := bind_eq_ok built
  refine ⟨yes, no, step, checked, fini, _, _, _, ?_, makesFini, built⟩
  obtain ⟨yes_signature, sets⟩ := call_constant makesYes
  obtain ⟨no_signature, clears⟩ := call_constant makesNo
  obtain ⟨step_signature, steps⟩ := call_dropFirst makesStep
  obtain ⟨pred_signature, asks⟩ := call_dropFirst makesPred
  obtain ⟨constant_signature, holds⟩ := call_constant makesConstant
  obtain ⟨test_signature, keeps⟩ := call_identity makesFlag
  obtain ⟨checked_signature, same, guards⟩ := call_branching makesChecked
  have some : pred'.signature.params ≠ [] := by
    rw [pred_signature]
    exact List.cons_ne_nil _ _
  obtain ⟨always_signature, ignores⟩ := call_dropArguments some makesAlways
  rw [constant_signature, List.append_nil, pred_signature] at always_signature
  rw [always_signature, pred_signature] at same
  have bool : pred.signature.ret = .bool := Kind.beq_prim_iff.1 (Bool.and_eq_true_iff.1 same).1
  refine ⟨yes_signature, sets, no_signature, clears, step_signature, steps,
    checked_signature.trans always_signature, fun host n flag args lengths => ?_⟩
  have whole : (flag :: args).length = checked.arity := by
    rw [arity, checked_signature, always_signature, List.length_cons, lengths]
    rfl
  have tested : (runCode host (n + 2)).front test (flag :: args) = pure flag := by
    unfold Runner.front arity
    rw [test_signature]
    exact keeps host (n + 1) flag
  have passes : (runCode host (n + 2)).call always (flag :: args) = pure (.bool true) := by
    have constant : (runCode host (n + 1)).call constantly [] = pure (.bool true) := by
      simpa [Runner.front] using holds host n []
    have none : (flag :: args).drop pred'.signature.params.length = [] := by
      rw [pred_signature, List.length_cons, List.drop_succ_cons, List.drop_eq_nil_of_le]
      exact Nat.le_of_eq lengths
    have own : (flag :: args).length = always.arity := by
      rw [whole, arity, arity, checked_signature]
    rw [ignores host (n + 1) _ own, none, constant, constant_signature]
    rfl
  have asked : (runCode host (n + 2)).call pred' (flag :: args) =
      (runCode host (n + 1)).call pred args := by
    rw [asks host (n + 1) flag args lengths, bool]
    exact bind_pure _
  rw [guards host (n + 2) _ whole, tested, pure_bind, passes, asked, always_signature]
  cases flag.bool?.getD false with
  | true => rfl
  | false => exact bind_pure _

/-- The finalizer that returns the variable, on a frame that has it after some other values. -/
theorem finish_returning {kind : Kind} {skipped : List Kind} {fini : Option Handle}
    (made : returning kind skipped t = (.ok fini, u)) (before : List Value)
    (lengths : before.length = skipped.length) (host : Host) (n : Nat) (v : Value)
    (args : List Value) :
    NamedLoop.finish (runCode host (n + 3)) (before ++ (kind.carried v ++ args)) fini.toList =
      pure (kind.kept v) := by
  unfold Kind.kept Kind.carried
  obtain ⟨void, rfl⟩ | ⟨f, nonVoid, rfl, signature, returns⟩ := call_returning made
  · rw [void]
    rfl
  · have front : (before ++ ([v] ++ args)).take f.arity = before ++ [v] := by
      have whole : f.arity = (before ++ [v]).length := by
        rw [arity, signature]
        simp [lengths]
      rw [← List.append_assoc, whole, List.take_left]
    have result : f.signature.returnsVoid = false := by
      rw [Signature.returnsVoid, signature]
      exact nonVoid
    rw [nonVoid]
    unfold NamedLoop.finish Runner.front
    simp only [Bool.false_eq_true, if_false, front, returns host n before v lengths, pure_bind,
      Option.toList_some, NamedLoop.finish, result]

variable {init : Option Handle} {pred body : Handle} {args : List Value}

/-- A while loop tests and runs its variable. -/
theorem whileLoop_invokeExact (built : whileLoop init pred body t = (.ok h, u))
    (conform : Conform args h.signature.params) (host : Host) (n : Nat) :
    h.invokeExact (runCode host (n + 4)) args = (do
      let run := runCode host (n + 3)
      let v ← WhileLoop.start init body run args
      Exec.repeatWhile (WhileLoop.holds pred body run args) (WhileLoop.next body run args) pure
        (n + 3) v) := by
  obtain ⟨fini, _, makesFini, made⟩ := bind_eq_ok built
  rw [loop_invokeExact made conform host (n + 3)]
  exact NamedLoop.perform_single
    (fun v => finish_returning makesFini [] rfl host n v args) (n + 3)

/-- A do-while loop carries its flag and its variable. -/
theorem FlaggedParts.carriedKinds {yes no step checked : Handle}
    (parts : FlaggedParts pred body yes no step checked) (init fini : Option Handle) :
    LoopPlan.carriedKinds
      [⟨some yes, some no, none, none⟩, ⟨init, some step, some checked, fini⟩] =
        .bool :: variableKinds body.signature.ret := by
  have flag : Kind.bool.isVoid = false := rfl
  simp only [LoopPlan.carriedKinds, List.map_cons, List.map_nil, LoopClause.variableKind,
    parts.no_signature, parts.step_signature, variableKinds]
  cases void : body.signature.ret.isVoid <;> simp [void, flag]

/-- What the functions of a do-while loop do on its frames. -/
theorem FlaggedParts.flags {yes no step checked : Handle} {fini : Option Handle}
    (parts : FlaggedParts pred body yes no step checked)
    (returns : returning body.signature.ret [.bool] t = (.ok fini, u))
    (bodyFits : body.arity ≤ (variableKinds body.signature.ret).length + args.length)
    (predFits : pred.arity ≤ (variableKinds body.signature.ret).length + args.length)
    (host : Host) (n : Nat) :
    NamedLoop.Flags (runCode host (n + 3)) (runCode host (n + 2)) (runCode host (n + 1)) args pred
      body yes no step checked fini := by
  have lengths : ∀ {f : Handle}, f.arity ≤ (variableKinds body.signature.ret).length + args.length →
      ∀ v, ((body.signature.ret.carried v ++ args).take f.arity).length = f.arity := by
    intro f fits v
    rw [List.length_take, List.length_append, Kind.carried_length]
    exact Nat.min_eq_left fits
  constructor
  case yes => exact parts.yes host (n + 2) args
  case no_ret => exact congrArg Signature.ret parts.no_signature
  case no => exact parts.no host (n + 2)
  case step_ret => rw [parts.step_signature]
  case step =>
    intro flag v
    have arity : step.arity = body.arity + 1 := by
      rw [Handle.arity, parts.step_signature]
      rfl
    rw [Runner.front, arity, List.take_succ_cons,
      parts.step host (n + 2) flag _ (lengths bodyFits v)]
    rfl
  case checked =>
    intro flag v
    have arity : checked.arity = pred.arity + 1 := by
      rw [Handle.arity, parts.checked_signature]
      rfl
    rw [Runner.front, arity, List.take_succ_cons,
      parts.checked host n flag _ (lengths predFits v)]
    cases flag.bool?.getD false <;> rfl
  case fini =>
    exact fun flag v => finish_returning returns [flag] rfl host n v args

/-- A do-while loop runs its variable once before it tests it for the first time. -/
theorem doWhileLoop_invokeExact (built : doWhileLoop init body pred t = (.ok h, u))
    (conform : Conform args h.signature.params) (host : Host) (n : Nat) :
    h.invokeExact (runCode host (n + 4)) args = (do
      let v ← WhileLoop.start init body (runCode host (n + 3)) args
      let w ← WhileLoop.next body (runCode host (n + 2)) args v
      Exec.repeatWhile (WhileLoop.holds pred body (runCode host (n + 1)) args)
        (WhileLoop.next body (runCode host (n + 2)) args) pure (n + 2) w) := by
  obtain ⟨yes, no, step, checked, fini, _, _, _, parts, returns, made⟩ := doWhileLoop_eq_ok built
  obtain ⟨result, accepted, -, -⟩ := loop_eq_ok made
  have carried := parts.carriedKinds init fini
  have fits := accepted.fits
  rw [carried] at fits
  have within := (List.forall_mem_cons.1 (List.forall_mem_cons.1 fits).2).1.body
  have fewer : ∀ {f g : Handle},
      f ∈ LoopClause.bodyFunctions ⟨init, some step, some checked, fini⟩ →
      f.signature.params = .bool :: g.signature.params →
      g.arity ≤ (variableKinds body.signature.ret).length + args.length := by
    intro f g mem same
    have leads := length_le_of_isPrefixOf (within f mem)
    rw [same] at leads
    simpa [conform.length_eq, arity, Signature.arity] using leads
  have bodyFits : body.arity ≤ _ :=
    fewer (f := step) (by simp [LoopClause.bodyFunctions]) (by rw [parts.step_signature])
  have predFits : pred.arity ≤ _ :=
    fewer (f := checked) (by simp [LoopClause.bodyFunctions]) (by rw [parts.checked_signature])
  rw [loop_invokeExact made conform host (n + 3)]
  exact NamedLoop.perform_flagged (parts.flags returns bodyFits predFits host n) (n + 2)

end Handle

/-! Parameters. -/

namespace LoopPlan

/-- The parameters of a loop that is accepted: those of its longest init, or what its longest other
function takes beyond the variables. -/
def outerKinds (clauses : List LoopClause) : List Kind :=
  let inits := longest ((clauses.filterMap (·.init)).map (·.signature.params))
  let body := longest ((clauses.flatMap LoopClause.bodyFunctions).map (·.signature.params))
  if inits.isEmpty then body.drop (carriedKinds clauses).length else inits

theorem outerParameters_outerKinds (clauses : List LoopClause) :
    Ends (·.isStatic = true) (· = outerKinds clauses)
      (outerParameters clauses (carriedKinds clauses)) := by
  unfold outerParameters outerKinds
  dsimp only
  cases (longest ((clauses.filterMap (·.init)).map (·.signature.params))).isEmpty with
  | false => rfl
  | true =>
    simp only [Bool.not_true, Bool.false_eq_true, if_false, if_true]
    split
    · next few => exact (List.drop_eq_nil_of_le few).symm
    · split
      · refine (Signature.make_ends _ _).bind fun _ _ => ?_
        exact (Signature.make_ends _ _).bind fun _ _ => rfl
      · rfl

theorem loop_params (clauses : List LoopClause) :
    Ends (·.isStatic = true) (fun b => b.signature.params = outerKinds clauses)
      (Blueprint.loop clauses) := by
  unfold Blueprint.loop
  refine Ends.checkFailure rfl fun _ => ?_
  dsimp only
  split
  · rfl
  refine (mapM_ends fun c _ => (requireReturns_ends c).imp fun _ _ => trivial).bind fun _ _ => ?_
  refine (outerParameters_outerKinds clauses).bind fun outer same => ?_
  refine (Signature.make_ends _ _).bind fun _ _ => ?_
  refine (checkClauses_ends _ _ _ _ _ _).bind fun _ _ => ?_
  refine (Signature.make_ends _ _).bind fun s spec => ?_
  obtain ⟨rfl, -⟩ := spec
  exact same

/-- A kind in front of all lists stands in front of the longest one. -/
theorem longest_map_cons (k : Kind) {lists : List (List Kind)} (some : lists ≠ []) :
    longest (lists.map (k :: ·)) = k :: longest lists := by
  let longer (best list : List Kind) : List Kind := if best.length ≤ list.length then list else best
  have keeps : ∀ best list, longer (k :: best) (k :: list) = k :: longer best list := by
    intro best list
    simp only [longer, List.length_cons, Nat.succ_le_succ_iff]
    split <;> rfl
  have fold : ∀ (lists : List (List Kind)) (best : List Kind),
      (lists.map (k :: ·)).foldl longer (k :: best) = k :: lists.foldl longer best := by
    intro lists
    induction lists with
    | nil => exact fun _ => rfl
    | cons list rest ih =>
      intro best
      rw [List.map_cons, List.foldl_cons, keeps, ih, List.foldl_cons]
  obtain ⟨list, rest, rfl⟩ := List.exists_cons_of_ne_nil some
  exact fold rest list

/-- A flag ahead of the variable does not change the parameters of a loop. -/
theorem outerKinds_flagged {pred body yes no step checked : Handle} {fini fini' : Option Handle}
    (parts : Handle.FlaggedParts pred body yes no step checked) (init : Option Handle)
    (finis : fini'.toList.map (·.signature.params) =
      fini.toList.map fun f => .bool :: f.signature.params) :
    outerKinds [⟨some yes, some no, none, none⟩, ⟨init, some step, some checked, fini'⟩] =
      outerKinds [⟨init, some body, some pred, fini⟩] := by
  let a : LoopClause := ⟨some yes, some no, none, none⟩
  let c : LoopClause := ⟨init, some step, some checked, fini'⟩
  let d : LoopClause := ⟨init, some body, some pred, fini⟩
  let inits := init.toList.map (·.signature.params)
  let own := body.signature.params :: pred.signature.params :: fini.toList.map (·.signature.params)
  have inits_flagged : ([a, c].filterMap (·.init)).map (·.signature.params) = [] :: inits := by
    cases init <;> simp [a, c, inits, parts.yes_signature]
  have inits_plain : ([d].filterMap (·.init)).map (·.signature.params) = inits := by
    cases init <;> simp [d, inits]
  have body_flagged : ([a, c].flatMap LoopClause.bodyFunctions).map (·.signature.params) =
      [] :: own.map (.bool :: ·) := by
    simp [a, c, own, LoopClause.bodyFunctions, parts.no_signature, parts.step_signature,
      parts.checked_signature, finis]
  have body_plain : ([d].flatMap LoopClause.bodyFunctions).map (·.signature.params) = own := by
    simp [d, own, LoopClause.bodyFunctions]
  have carried : carriedKinds [d] = Handle.variableKinds body.signature.ret := by
    simp only [d, carriedKinds, List.map_cons, List.map_nil, LoopClause.variableKind,
      Handle.variableKinds]
    cases void : body.signature.ret.isVoid <;> simp [void]
  have empty : ∀ lists, longest ([] :: lists) = longest lists := fun _ => rfl
  unfold outerKinds
  rw [inits_flagged, inits_plain, body_flagged, body_plain, empty, empty,
    longest_map_cons _ (List.cons_ne_nil _ _), parts.carriedKinds, carried]
  rfl

/-- The result of a loop that has one finalizer, or none. -/
theorem resultKind_of_finalizer {clauses : List LoopClause} {outer : List Kind}
    {result : Option Nat} {kind : Kind} {fini : Option Handle}
    (accepted : Accepted clauses outer result)
    (finis : clauses.filterMap (·.fini) = fini.toList)
    (returns : (kind.isVoid = true ∧ fini = none) ∨
      ∃ f, kind.isVoid = false ∧ fini = some f ∧ f.signature.ret = kind) :
    resultKind clauses result = kind := by
  obtain ⟨frameSignature, chooses⟩ := accepted.chosen
  cases result with
  | none =>
    have none := chooseResults_countP chooses
    obtain ⟨void, -⟩ | ⟨f, nonVoid, rfl, rfl⟩ := returns
    · exact (Kind.isVoid_iff.1 void).symm
    · rw [finis] at none
      simp [Signature.returnsVoid, nonVoid] at none
  | some index =>
    rcases chooseResults_returns chooses with fresh | ⟨j, other, eq, found, -⟩
    · cases fresh
    · obtain rfl : index = j := by rw [eq, Nat.zero_add]
      have mem : other ∈ clauses.filterMap (·.fini) := by
        obtain ⟨c, here, same⟩ := Option.bind_eq_some_iff.1 found
        exact List.mem_filterMap.2 ⟨c, List.mem_of_getElem? here, same⟩
      rw [finis] at mem
      obtain ⟨-, rfl⟩ | ⟨f, -, rfl, ret⟩ := returns
      · cases mem
      · cases List.mem_singleton.1 mem
        rw [resultKind, Option.bind_some, found]
        exact ret

end LoopPlan

namespace Handle

variable {w d pred body : Handle} {init : Option Handle} {t t' u u' : HandleTable}

/-- A loop whose only finalizer returns a variable returns what its kind is. -/
theorem loop_ret {h : Handle} {clauses : List LoopClause} {kind : Kind} {skipped : List Kind}
    {fini : Option Handle} (returns : returning kind skipped t = (.ok fini, t'))
    (finis : clauses.filterMap (·.fini) = fini.toList) (made : loop clauses u = (.ok h, u')) :
    h.signature.ret = kind := by
  obtain ⟨result, accepted, ret, -⟩ := loop_eq_ok made
  rw [ret]
  refine LoopPlan.resultKind_of_finalizer accepted finis ((call_returning returns).imp_right ?_)
  rintro ⟨f, nonVoid, found, signature, -⟩
  exact ⟨f, nonVoid, found, by rw [signature]⟩

/-- While loops of the same functions have the same signature. -/
theorem signature_of_whileLoops (whiles : whileLoop init pred body t = (.ok w, t'))
    (doWhiles : doWhileLoop init body pred u = (.ok d, u')) : w.signature = d.signature := by
  obtain ⟨fini, _, makesFini, madeWhile⟩ := bind_eq_ok whiles
  obtain ⟨yes, no, step, checked, fini', _, _, _, parts, makesFini', madeDo⟩ :=
    doWhileLoop_eq_ok doWhiles
  have params : w.signature.params = LoopPlan.outerKinds _ :=
    (LoopPlan.loop_params _).of_eq_ok (Build.of_accept madeWhile)
  have params' : d.signature.params = LoopPlan.outerKinds _ :=
    (LoopPlan.loop_params _).of_eq_ok (Build.of_accept madeDo)
  have returns := call_returning makesFini
  have returns' := call_returning makesFini'
  have finis : fini'.toList.map (·.signature.params) =
      fini.toList.map fun f => .bool :: f.signature.params := by
    obtain ⟨void, rfl⟩ | ⟨f, nonVoid, rfl, signature, -⟩ := returns <;>
      obtain ⟨void', rfl⟩ | ⟨f', nonVoid', rfl, signature', -⟩ := returns'
    · rfl
    · cases void.symm.trans nonVoid'
    · cases void'.symm.trans nonVoid
    · simp [signature, signature']
  have same : w.signature.ret = body.signature.ret :=
    loop_ret makesFini (by cases fini <;> rfl) madeWhile
  have same' : d.signature.ret = body.signature.ret :=
    loop_ret makesFini' (by cases fini' <;> rfl) madeDo
  rw [← LoopPlan.outerKinds_flagged parts init finis, ← params'] at params
  exact Signature.ext (same.trans same'.symm) params

end Handle

namespace WhileLoop

variable (init : Option Handle) (pred body : Handle) (args : List Value) (host : Host)

theorem start_deepens : Exec.Deepens fun n => start init body (runCode host n) args := by
  unfold start
  cases init with
  | none => exact .const _
  | some f => exact .bind (.front host f args) fun _ => .const _

theorem holds_deepens (v : Value) :
    Exec.Deepens fun n => holds pred body (runCode host n) args v :=
  .bind (.front host pred _) fun _ => .const _

theorem next_deepens (v : Value) : Exec.Deepens fun n => next body (runCode host n) args v :=
  .bind (.front host body _) fun _ => .const _

end WhileLoop

namespace Handle

variable {w d pred body : Handle} {init : Option Handle} {t t' u u' : HandleTable}

/-- While loops compute the usual loops, and differ only in the first test. Both start their
variable by the init, or from zero. Then the one tests it and runs the body for as long as the test
holds; it returns the first value of which it does not hold. The other one runs the body once, and
goes on with what that returned as the first one does. A variable that is `void` is never anything
else.

So it is call by call, for every depth, and so are the outcomes when the depth is great enough: the
loops end where the described ones do, and a halt of a call is a halt of the loop. -/
theorem while_loops (whiles : whileLoop init pred body t = (.ok w, t'))
    (doWhiles : doWhileLoop init body pred u = (.ok d, u')) :
    w.signature = d.signature ∧ ∀ args, Conform args w.signature.params → ∀ host : Host,
      let start := host.comesTo fun run => WhileLoop.start init body run args
      let holds v := host.comesTo fun run => WhileLoop.holds pred body run args v
      let next v := host.comesTo fun run => WhileLoop.next body run args v
      let rounds (v : Value) : Outcomes Value := fun s outcome s' =>
        ∃ n, Repeats holds next n v s outcome s'
      (∀ r s s', host.comesTo (w.invokeExact · args) s (.ok r) s' ↔
        ∃ (n : Nat) (v : Nat → Value) (before after : Nat → State),
          start s (.ok (v 0)) (before 0) ∧
          (∀ k < n, holds (v k) (before k) (.ok true) (after k) ∧
            next (v k) (after k) (.ok (v (k + 1))) (before (k + 1))) ∧
          holds (v n) (before n) (.ok false) s' ∧ r = v n) ∧
      host.comesTo (w.invokeExact · args) = start.andThen rounds ∧
      host.comesTo (d.invokeExact · args) = (start.andThen fun v => (next v).andThen rounds) ∧
      (∀ n, w.invokeExact (runCode host (n + 4)) args = (do
        let run := runCode host (n + 3)
        let v ← WhileLoop.start init body run args
        Exec.repeatWhile (WhileLoop.holds pred body run args) (WhileLoop.next body run args) pure
          (n + 3) v)) ∧
      ∀ n, d.invokeExact (runCode host (n + 4)) args = (do
        let v ← WhileLoop.start init body (runCode host (n + 3)) args
        let w ← WhileLoop.next body (runCode host (n + 2)) args v
        Exec.repeatWhile (WhileLoop.holds pred body (runCode host (n + 1)) args)
          (WhileLoop.next body (runCode host (n + 2)) args) pure (n + 2) w) := by
  have signature := signature_of_whileLoops whiles doWhiles
  refine ⟨signature, fun args conform host => ?_⟩
  intro start holds next rounds
  have whileCalls := whileLoop_invokeExact whiles conform host
  have doWhileCalls := doWhileLoop_invokeExact doWhiles (signature ▸ conform) host
  let begins (n : Nat) := WhileLoop.start init body (runCode host n) args
  let advances (v : Value) (n : Nat) := WhileLoop.next body (runCode host n) args v
  have starts : Exec.Deepens begins := WhileLoop.start_deepens init body args host
  have tests := WhileLoop.holds_deepens pred body args host
  have steps : ∀ v, Exec.Deepens (advances v) := WhileLoop.next_deepens body args host
  have whileRuns : host.comesTo (w.invokeExact · args) = start.andThen rounds :=
    calc host.comesTo (w.invokeExact · args)
      _ = Exec.ComesTo fun n => w.invokeExact (runCode host (n + 4)) args :=
        (Exec.comesTo_add _ 4).symm
      _ = _ := congrArg Exec.ComesTo (funext whileCalls)
      _ = _ := Exec.comesTo_bind (starts.add 3) _
      _ = start.andThen rounds := congrArg₂ Outcomes.andThen (Exec.comesTo_add begins 3)
        (funext (Exec.comesTo_repeatWhile tests steps 3 3 3))
  -- Each part of a do-while loop runs at a depth of its own, which makes no difference either.
  have doWhileRuns : host.comesTo (d.invokeExact · args) =
      start.andThen fun v => (next v).andThen rounds :=
    calc host.comesTo (d.invokeExact · args)
      _ = Exec.ComesTo fun n => d.invokeExact (runCode host (n + 4)) args :=
        (Exec.comesTo_add _ 4).symm
      _ = _ := congrArg Exec.ComesTo (funext doWhileCalls)
      _ = _ := Exec.comesTo_bind (starts.add 3) _
      _ = _ := congrArg₂ Outcomes.andThen (Exec.comesTo_add begins 3) (funext fun v => calc _
        _ = _ := Exec.comesTo_bind ((steps v).add 2) _
        _ = (next v).andThen rounds := congrArg₂ Outcomes.andThen
          (Exec.comesTo_add (advances v) 2)
          (funext (Exec.comesTo_repeatWhile tests steps 1 2 2)))
  refine ⟨fun r s s' => ?_, whileRuns, doWhileRuns, whileCalls, doWhileCalls⟩
  rw [whileRuns]
  constructor
  · rintro (⟨e, fails, -⟩ | ⟨v, t, begun, n, repeats⟩)
    · cases fails
    · obtain ⟨v, before, after, ⟨rfl, rfl⟩, round, stops, last⟩ := repeats_ok_iff.1 repeats
      exact ⟨n, v, before, after, begun, round, stops, last⟩
  · rintro ⟨n, v, before, after, begun, round, stops, last⟩
    exact .inr ⟨v 0, before 0, begun, n,
      repeats_ok_iff.2 ⟨v, before, after, ⟨rfl, rfl⟩, round, stops, last⟩⟩

end Handle

/-- A host that goes up by one, below a bound. -/
def Host.climbing : Host := fun f args =>
  match f.id, args.filterMap Value.int? with
  | 0, i :: bound :: _ => .value (.bool (i < bound))
  | _, i :: _ => .value (.int (i + 1))
  | _, _ => .value .void

/-- Below a bound of zero there is no round, except where the body comes first. -/
theorem Handle.while_loops_none :
    let below := Handle.ofHost 0 ⟨.bool, [.int, .int]⟩
    let up := Handle.ofHost 1 ⟨.int, [.int, .int]⟩
    ∃ w d t u, whileLoop none below up .empty = (.ok w, t) ∧
      doWhileLoop none up below .empty = (.ok d, u) ∧ Conform [.int 0] w.signature.params ∧
      (∃ s, Host.climbing.comesTo (w.invokeExact · [.int 0]) .empty (.ok (.int 0)) s) ∧
      ∃ s, Host.climbing.comesTo (d.invokeExact · [.int 0]) .empty (.ok (.int 1)) s := by
  intro below up
  have whiles : whileLoop none below up .empty = (.ok _, _) := rfl
  have doWhiles : doWhileLoop none up below .empty = (.ok _, _) := rfl
  have conform : Conform [.int 0] [.int] := .cons rfl .nil
  obtain ⟨-, loops⟩ := Handle.while_loops whiles doWhiles
  obtain ⟨returns, -, runsOnce, -, -⟩ := loops [.int 0] conform .climbing
  have starts := WhileLoop.start_deepens none up [.int 0] .climbing
  have tests := WhileLoop.holds_deepens below up [.int 0] .climbing
  have steps := WhileLoop.next_deepens up [.int 0] .climbing (.int 0)
  have begun := starts.comesTo (n := 4) (s := .empty) rfl nofun
  have whileEnds := (returns (.int 0) .empty _).2 ⟨0, fun _ => .int 0, fun _ => .empty,
    fun _ => .empty, begun, nofun, (tests (.int 0)).comesTo (n := 4) rfl nofun, rfl⟩
  let after := (WhileLoop.next up (runCode .climbing 4) [.int 0] (.int 0) .empty).2
  have once := steps.comesTo (n := 4) (s := .empty) (t := after) rfl nofun
  let last := (WhileLoop.holds below up (runCode .climbing 4) [.int 0] (.int 1) after).2
  have stops := (tests (.int 1)).comesTo (n := 4) (s := after) (t := last) rfl nofun
  refine ⟨_, _, _, _, whiles, doWhiles, conform, ⟨_, whileEnds⟩, last, ?_⟩
  rw [runsOnce]
  exact .inr ⟨_, _, begun, .inr ⟨_, _, once, 0, .stops stops⟩⟩

end TypedHandles
