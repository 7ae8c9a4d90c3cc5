import TypedHandles.Handle.Arguments
import TypedHandles.Handle.Control
import TypedHandles.Handle.Retype

/-!
Loops made of clauses, and the usual loops as clauses.

Each clause may carry a variable. The frame of a loop holds the variables that are not `void`, in
the order of the clauses, and after them the parameters of the loop. An init takes leading
parameters of the loop; every other function takes leading slots of the frame.
-/
namespace TypedHandles
namespace LoopPlan

/-- The last of the longest lists, or none of any items. -/
def longest (lists : List (List Kind)) : List Kind :=
  lists.foldl (fun best list => if best.length ≤ list.length then list else best) []

/-- The slot of each clause's variable among the carried ones, when `next` are taken already. -/
def assignSlots (next : Slot) : List LoopClause → List (Option Slot)
  | [] => []
  | c :: rest =>
    if c.variableKind.isVoid then none :: assignSlots next rest
    else some next :: assignSlots (next + 1) rest

/-- The kinds of the carried variables. -/
def carriedKinds (clauses : List LoopClause) : List Kind :=
  (clauses.map LoopClause.variableKind).filter (!·.isVoid)

/-- The parameters of a loop: those of the longest init, or when no init takes any, what the longest
other function takes beyond the carried variables. -/
def outerParameters (clauses : List LoopClause) (carried : List Kind) :
    Except Failure (List Kind) := do
  let inits := longest ((clauses.filterMap (·.init)).map (·.signature.params))
  if !inits.isEmpty then return inits
  let body := longest ((clauses.flatMap LoopClause.bodyFunctions).map (·.signature.params))
  if body.length ≤ carried.length then return []
  if !carried.isPrefixOf body then
    let carriedSignature ← Signature.make .void carried
    let bodySignature ← Signature.make .void body
    throw (.adapterMismatch .carriedVariables carriedSignature bodySignature)
  return body.drop carried.length

/-- Requires an init and a step of one clause to return the same kind. -/
def requireReturns (c : LoopClause) : Except Failure Unit :=
  match c.init, c.step with
  | some init, some step =>
    if init.signature.ret != step.signature.ret then
      .error (.adapterMismatch .clauseReturns step.signature init.signature)
    else .ok ()
  | _, _ => .ok ()

/-- Requires the init of clause `index` to take leading parameters of the loop. -/
def checkInit (outer : List Kind) (index : Nat) (c : LoopClause) : Except Failure Unit :=
  match c.init with
  | none => .ok ()
  | some init =>
    if init.signature.params.isPrefixOf outer then .ok ()
    else do
      let outerSignature ← Signature.make .void outer
      throw (.adapterMismatch (.clauseInit index) outerSignature init.signature)

/-- Requires the other functions of clause `index` to take leading slots of the frame. -/
def checkBody (frame : List Kind) (frameSignature : Signature) (index : Nat) (c : LoopClause) :
    Except Failure Unit :=
  match c.bodyFunctions.find? fun f => !f.signature.params.isPrefixOf frame with
  | none => .ok ()
  | some f => .error (.adapterMismatch (.clauseFunction index) frameSignature f.signature)

/-- Requires the predicate of clause `index` to return a truth value. -/
def checkPredicate (frameSignature : Signature) (index : Nat) (c : LoopClause) :
    Except Failure Unit :=
  match c.pred with
  | none => .ok ()
  | some pred =>
    if pred.signature.ret == .bool then .ok ()
    else .error (.adapterMismatch (.clausePredicate index) frameSignature pred.signature)

/-- The clause whose finalizer yields the result, once clause `index` is seen: one clause at most
may have a finalizer with a result. -/
def chooseResult (frameSignature : Signature) (result : Option Nat) (index : Nat)
    (c : LoopClause) : Except Failure (Option Nat) :=
  match c.fini with
  | none => .ok result
  | some fini =>
    if fini.signature.returnsVoid then .ok result
    else if result.isSome then
      .error (.adapterMismatch .secondResult frameSignature fini.signature)
    else .ok (some index)

/-- Checks the functions of clause `index` against the loop, given the clause whose finalizer yields
the result so far, and finds that clause again. -/
def checkClause (outer frame : List Kind) (frameSignature : Signature) (result : Option Nat)
    (index : Nat) (c : LoopClause) : Except Failure (Option Nat) := do
  checkInit outer index c
  checkBody frame frameSignature index c
  checkPredicate frameSignature index c
  chooseResult frameSignature result index c

/-- Checks all clauses from `index` on; finds the clause whose finalizer yields the result. -/
def checkClauses (outer frame : List Kind) (frameSignature : Signature) (result : Option Nat)
    (index : Nat) : List LoopClause → Except Failure (Option Nat)
  | [] => .ok result
  | c :: rest => do
    let result ← checkClause outer frame frameSignature result index c
    checkClauses outer frame frameSignature result (index + 1) rest

/-- What a loop returns. -/
def resultKind (clauses : List LoopClause) (result : Option Nat) : Kind :=
  match (result.bind fun index => clauses[index]?).bind (·.fini) with
  | some fini => fini.signature.ret
  | none => .void

end LoopPlan

namespace Blueprint

/-- The loop of a list of clauses. -/
def loop (clauses : List LoopClause) : Except Failure Blueprint := do
  if clauses.isEmpty then throw (.illegalArgument .noClauses)
  if let some index := clauses.findIdx? LoopClause.isEmpty then
    throw (.illegalArgument (.emptyClause index))
  let _ ← clauses.mapM LoopPlan.requireReturns
  let carried := LoopPlan.carriedKinds clauses
  let outer ← LoopPlan.outerParameters clauses carried
  let frame := carried ++ outer
  let frameSignature ← Signature.make .void frame
  let result ← LoopPlan.checkClauses outer frame frameSignature none 0 clauses
  let signature ← Signature.make (LoopPlan.resultKind clauses result) outer
  let plan : LoopPlan := ⟨clauses, LoopPlan.assignSlots 0 clauses, carried, result⟩
  return ⟨signature, .single signature (.loop plan)⟩

end Blueprint

namespace Handle

/-- Makes the loop of a list of clauses. -/
def loop (clauses : List LoopClause) : Build Handle := Build.accept (Blueprint.loop clauses)

/-- The finalizer that returns the variable after `skipped` others; a `void` variable has none. -/
def returning (kind : Kind) (skipped : List Kind) : Build (Option Handle) := do
  if kind.isVoid then return none
  let same ← Build.accept (Blueprint.identity kind)
  return some (← same.dropArguments 0 skipped)

/-- `v = init(A…)`, then `v = body(v, A…)` while `pred(v, A…)`; returns `v`. -/
def whileLoop (init : Option Handle) (pred body : Handle) : Build Handle := do
  let fini ← returning body.signature.ret []
  loop [⟨init, some body, some pred, fini⟩]

/-- Like `whileLoop`, but the body runs before the predicate is asked for the first time. A flag in
front of the variable tells the first round. -/
def doWhileLoop (init : Option Handle) (body pred : Handle) : Build Handle := do
  let yes ← Build.accept (Blueprint.constant .bool (.bool true))
  let no ← Build.accept (Blueprint.constant .bool (.bool false))
  let pred ← pred.dropArguments 0 [.bool]
  let constantly ← Build.accept (Blueprint.constant .bool (.bool true))
  let always ← constantly.dropArguments 0 pred.signature.params
  let flag ← Build.accept (Blueprint.identity .bool)
  let checked ← Build.allocate (Blueprint.branching flag always pred)
  let step ← body.dropArguments 0 [.bool]
  let fini ← returning body.signature.ret [.bool]
  loop [⟨some yes, some no, none, none⟩, ⟨init, some step, some checked, fini⟩]

/-- The kinds of a loop variable: none when it is `void`. -/
def variableKinds (kind : Kind) : List Kind := if kind.isVoid then [] else [kind]

/-- `v = init(A…)`, then `v = body(v, i, A…)` for `i` from `start(A…)` up to `end(A…)`; returns `v`.
The bound is computed once, and first. -/
def countedLoopRange (start stop : Handle) (init : Option Handle) (body : Handle) :
    Build Handle := do
  if let some bound := [start, stop].find? (·.signature.ret != .int) then
    Build.refuse (.adapterMismatch .countedBound body.signature bound.signature)
  let kind := body.signature.ret
  let vars := variableKinds kind
  let expected := vars ++ [.int]
  if !body.signature.startsWith expected then
    let signature ← Build.ofChecked (Checked.ofExcept (Signature.make kind expected))
    Build.refuse (.adapterMismatch .countedBody signature body.signature)
  let less ← Build.accept Blueprint.intLess
  let counterFrame := Kind.int :: vars ++ [.int]
  let tested ← Build.ofChecked (Checked.ofExcept (Signature.make .bool counterFrame))
  let less ← Build.allocate (Blueprint.permuteArguments less tested [1 + vars.length, 0])
  let increment ← Build.accept Blueprint.intIncrement
  let increment ← increment.dropArguments 0 (.int :: vars)
  let step ← body.dropArguments 0 [.int]
  let fini ← returning kind [.int]
  loop [⟨some stop, none, none, none⟩, ⟨init, some step, none, fini⟩,
    ⟨some start, some increment, some less, none⟩]

/-- The counted loop that starts from zero. -/
def countedLoop (iterations : Handle) (init : Option Handle) (body : Handle) : Build Handle := do
  let zero ← Build.accept (Blueprint.constant .int (.int 0))
  countedLoopRange zero iterations init body

/-- `v = init(A…)`, then `v = body(v, e, A…)` for each item `e` of the array that is the first
parameter; returns `v`. -/
def iteratedLoop (array : Kind) (init : Option Handle) (body : Handle) : Build Handle := do
  if array.element?.isNone then Build.refuse (.illegalArgument (.notArray array))
  let kind := body.signature.ret
  let vars := variableKinds kind
  let pos := vars.length
  if body.arity ≤ pos || !body.signature.startsWith vars then
    let signature ← Build.ofChecked (Checked.ofExcept (Signature.make kind vars))
    Build.refuse (.adapterMismatch .iteratedBody signature body.signature)
  let element ← Build.ofChecked (Checked.ofOption body.signature.params[pos]?)
  let getter ← Build.accept (Blueprint.arrayItem array)
  let item ← Build.ofChecked (Checked.ofExcept (Signature.make element [array, .int]))
  let getter ← getter.asType item
  let fetched ← Build.allocate (Blueprint.collectArguments body pos getter)
  let reorder := Program.slots 0 pos ++ [pos + 1, pos] ++ Program.slots (pos + 2) fetched.arity
  let stepped := vars ++ [.int, array] ++ body.signature.paramsFrom (pos + 1)
  let stepSignature ← Build.ofChecked (Checked.ofExcept (Signature.make kind stepped))
  let step ← Build.allocate (Blueprint.permuteArguments fetched stepSignature reorder)
  let less ← Build.accept Blueprint.intLess
  let length ← Build.accept (Blueprint.arrayLength array)
  let inBounds ← Build.allocate (Blueprint.collectArguments less 1 length)
  let inBounds ← inBounds.dropArguments 0 vars
  let increment ← Build.accept Blueprint.intIncrement
  let increment ← increment.dropArguments 0 vars
  let fini ← returning kind []
  let zero ← Build.accept (Blueprint.constant .int (.int 0))
  loop [⟨init, some step, none, fini⟩, ⟨some zero, some increment, some inBounds, none⟩]

end Handle
end TypedHandles
