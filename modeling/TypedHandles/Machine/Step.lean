import TypedHandles.Machine.Loop
import TypedHandles.Value.Convert

/-!
Running programs. A program runs its bindings in order on a frame that starts with the arguments and
grows by one value for each binding.
-/
namespace TypedHandles

/-- What can be run on arguments: a program, which comes with the signature that its caller goes by,
or one action without a signature. -/
inductive Code where
  | program (signature : Signature) (program : Program)
  | action (action : Action)

/-- A way to run code. -/
abbrev Runner := Code → List Value → Exec Value

/-- Calls a handle on arguments that belong to its parameters. -/
def Runner.call (run : Runner) (h : Handle) (args : List Value) : Exec Value :=
  run (.program h.signature h.program) args

namespace Step

/-- The values of some slots. -/
def gather (frame : List Value) : List Slot → Exec (List Value)
  | [] => pure []
  | slot :: rest => do
    let v ← Exec.ofOption frame[slot]?
    return v :: (← gather frame rest)

/-- Requires the result of an action to belong to the kind of its slot; a `void` slot takes none. -/
def checkResult (kind : Kind) (v : Value) : Exec Value :=
  if kind.isVoid then pure .void
  else if v.conforms kind then pure v
  else Exec.refuse (v.castFailure kind)

/-- One item of an array that must hold exactly `length` items. -/
def spreadItem (index length : Nat) : Value → Exec Value
  | .array _ items =>
    if items.length = length then Exec.ofOption items[index]?
    else Exec.refuse (.wrongArgumentCount length items.length)
  | other => Exec.refuse (other.castFailure (.arrayOf .object))

variable (run : Runner)

/-- Calls one of two handles, by a test of the leading arguments. -/
def runBranch (test target fallback : Handle) (args : List Value) : Exec Value := do
  let outcome ← run.call test (← leading args test.arity)
  if outcome.bool?.getD false then run.call target args else run.call fallback args

/-- Calls a handle; a throwable of the given type goes to the handler, with leading arguments. -/
def runCatching (target : Handle) (exception : RefType) (handler : Handle) (args : List Value) :
    Exec Value := do
  match ← (run.call target args).attempt with
  | .ok v => return v
  | .error (.thrown t) =>
    if t.refType.isSubtypeOf exception then
      if handler.arity = 0 then throw .stuck
      run.call handler (.throwable t :: (← leading args (handler.arity - 1)))
    else Exec.refuse (.thrown t)
  | .error failure => Exec.refuse failure

/-- Why a handle failed, as a value: `null` when it did not. -/
def reason : Option Throwable → Value
  | some t => .throwable t
  | none => .null

/-- What a cleanup takes ahead of the arguments: why the handle failed, and what it returned. -/
def outcome (ret : Kind) (failure : Option Throwable) (result : Value) : List Value :=
  reason failure :: (if ret.isVoid then [] else [result])

/-- Calls the cleanup of a handle, after the handle failed for the given reason or returned the
given value. When both fail, what the handle threw is suppressed by what the cleanup threw. -/
def runCleanup (ret : Kind) (cleanup : Handle) (args : List Value) (failure : Option Throwable)
    (result : Value) : Exec Value := do
  let fixed := outcome ret failure result
  if cleanup.arity < fixed.length then throw .stuck
  let rest ← leading args (cleanup.arity - fixed.length)
  match ← (run.call cleanup (fixed ++ rest)).attempt with
  | .ok v => return v
  | .error raised =>
    match failure, raised.thrown? with
    | some earlier, some t => if earlier.id ≠ t.id then t.suppress earlier
    | _, _ => pure ()
    Exec.refuse raised

/-- Calls a handle and its cleanup after it. The cleanup's result replaces a result, but a failure
is reported again when the cleanup is done. A fatal failure skips the cleanup. -/
def runFinishing (target cleanup : Handle) (args : List Value) : Exec Value := do
  let ret := target.signature.ret
  match ← (run.call target args).attempt with
  | .ok v => runCleanup run ret cleanup args none v
  | .error failure =>
    if failure.isFatal then Exec.refuse failure
    let t ← asThrowable failure
    let _ ← runCleanup run ret cleanup args (some t) (.zero ret)
    Exec.refuse failure

/-- Runs one step over the values so far; loops run at most `limit` rounds. -/
def perform (limit : Nat) (kind : Kind) (step : Step) (frame : List Value) : Exec Value := do
  match step with
  | .const v => return v
  | .convert slot source target =>
    let v ← Exec.ofOption frame[slot]?
    Exec.ofExcept (v.convert source target)
  | .leaf action args => checkResult kind (← run (.action action) (← gather frame args))
  | .call target args => run.call target (← gather frame args)
  | .branch test target fallback args =>
    runBranch run test target fallback (← gather frame args)
  | .catching target exception handler args =>
    runCatching run target exception handler (← gather frame args)
  | .finishing target cleanup args => runFinishing run target cleanup (← gather frame args)
  | .loop plan args => plan.run run.call limit (← gather frame args)
  | .collect element args => return .array element (← gather frame args)
  | .spread slot index length => spreadItem index length (← Exec.ofOption frame[slot]?)
  | .dynamic site args =>
    let target ← site.target
    run.call target (← gather frame args)

end Step

namespace Program

/-- Runs bindings; yields the frame after them. -/
def fill (run : Runner) (limit : Nat) (frame : List Value) : List Binding → Exec (List Value)
  | [] => pure frame
  | b :: rest => do
    let v ← b.step.perform run limit b.kind frame
    fill run limit (frame ++ [v]) rest

/-- Runs a program on as many arguments as it has. -/
def perform (run : Runner) (limit : Nat) (p : Program) (args : List Value) : Exec Value := do
  let frame ← fill run limit args p.bindings
  match p.result with
  | some slot => Exec.ofOption frame[slot]?
  | none => return .void

end Program
end TypedHandles
