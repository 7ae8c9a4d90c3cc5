import TypedHandles.Machine.State

/-!
Running a loop. A round asks the predicates in the order of the clauses and stops at the first that
does not hold; then it runs the steps in that order, each on the variables as they are by then.
-/
namespace TypedHandles

/-- The first `count` values; there have to be as many. -/
def leading (values : List Value) (count : Nat) : Exec (List Value) :=
  Exec.ofOption (slice? values 0 count)

namespace LoopPlan

/-- A way to call a handle. -/
abbrev Caller := Handle → List Value → Exec Value

variable (call : Caller)

/-- Calls a handle on as many leading values as it takes. -/
def onLeading (h : Handle) (values : List Value) : Exec Value := do
  call h (← leading values h.arity)

/-- Starts the variables: inits run in order, and a variable without one starts from zero. -/
def start (carried : List Kind) (args : List Value) :
    List (LoopClause × Option Slot) → Exec (List Value)
  | [] => pure []
  | (c, slot) :: rest => do
    let initial ← c.init.mapM fun init => onLeading call init args
    let here ←
      match slot, initial with
      | none, _ => pure []
      | some _, some v => pure [v]
      | some s, none => pure [.zero (← Exec.ofOption carried[s]?)]
    return here ++ (← start carried args rest)

/-- Whether another round runs. -/
def goesOn (frame : List Value) : List LoopClause → Exec Bool
  | [] => pure true
  | c :: rest => do
    match c.pred with
    | none => goesOn frame rest
    | some pred =>
      if (← onLeading call pred frame).bool?.getD false then goesOn frame rest
      else return false

/-- Stores a value in a slot of the frame. -/
def store (frame : List Value) (slot : Slot) (v : Value) : Exec (List Value) :=
  if slot < frame.length then pure (frame.set slot v) else throw .stuck

/-- Runs the steps of one round; yields the frame after them. -/
def advance (frame : List Value) : List (LoopClause × Option Slot) → Exec (List Value)
  | [] => pure frame
  | (c, slot) :: rest => do
    match c.step with
    | none => advance frame rest
    | some step =>
      let v ← onLeading call step frame
      match slot with
      | none => advance frame rest
      | some s => advance (← store frame s v) rest

/-- Runs the finalizers from clause `index` on; yields the result of the one that is chosen. -/
def finish (frame : List Value) (chosen : Option Nat) (index : Nat) (result : Value) :
    List LoopClause → Exec Value
  | [] => pure result
  | c :: rest => do
    match c.fini with
    | none => finish frame chosen (index + 1) result rest
    | some fini =>
      let v ← onLeading call fini frame
      finish frame chosen (index + 1) (if chosen == some index then v else result) rest

/-- Runs rounds until a predicate does not hold, at most as many as the first number says. -/
def rounds (plan : LoopPlan) : Nat → List Value → Exec Value
  | 0, _ => throw .exhausted
  | n + 1, frame => do
    if ← goesOn call frame plan.clauses then
      rounds plan n (← advance call frame (plan.clauses.zip plan.slots))
    else finish call frame plan.result 0 .void plan.clauses

/-- Runs a loop on the arguments of its handle. -/
def run (plan : LoopPlan) (limit : Nat) (args : List Value) : Exec Value := do
  let started ← start call plan.carried args (plan.clauses.zip plan.slots)
  rounds call plan limit (started ++ args)

end LoopPlan
end TypedHandles
