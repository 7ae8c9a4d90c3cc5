import TypedHandles.Machine.Host
import TypedHandles.Machine.Action
import TypedHandles.Machine.Invoke

/-!
The machine: it runs host code, performs operations and runs programs, each by the others. Running
code is bounded by a number that goes down with every call; a greater number never changes an answer
that was reached.
-/
namespace TypedHandles

/-- The site of an answer, as a value. -/
def optionalSite : Option CallSite → Value
  | some site => .callSite site
  | none => .null

/-- Notes in the journal that a bootstrap runs, and runs it. -/
def announce (lookup : Lookup) (point : Descriptor) (bootstrap : Exec Value) : Exec Value := do
  Exec.record (.bootstrap lookup.caller point.name point.signature point.staticArgs)
  bootstrap

mutual

/-- Runs host code to its end, and notes in the journal how it ended. -/
def HostTask.run (run : Runner) : HostTask → Exec Value
  | .done result => do
    Exec.record (.ended result)
    Exec.ofExcept result
  | .ask question resume => do
    let answer ← (question.answer run).attempt
    (resume answer).run run

/-- Performs an operation. Its answer is a value: a new handle or site stands for itself, and an
operation without an answer yields `void`. -/
def Operation.answer (run : Runner) : Operation → Exec Value
  | .construct construction => do return .handle (← Exec.ofBuild construction.build)
  | .lambdaFactory name factory implementation instantiated => do
    let action := Action.intrinsic (.lambda name implementation instantiated)
    return .handle (← Exec.ofBuild (Blueprint.ofAction factory action).make)
  | .perform action args => run (.action action) args
  | .invokeExact target args => target.invokeExact run args
  | .invoke target args => target.invoke run args
  | .invokeAs target caller args => target.invokeAs run caller args
  | .newObject cls fields => do return .object (← TypedHandles.newObject cls fields)
  | .newThrowable cls message => do return .throwable (← TypedHandles.newThrowable cls message)
  | .getField object index => do return ((← get).field? object index).getD .null
  | .setField object index value => do return .bool (← object.setField index value)
  | .suppress throwable other => do
    throwable.suppress other
    return .void
  | .newSite kind target => do return .callSite (← siteFor kind target)
  | .newUnlinkedSite kind signature => do
    return .callSite (← TypedHandles.newSite kind signature none)
  | .siteTarget site => do return .handle (← site.target)
  | .setTarget site target => do
    site.setTarget target
    return .void
  | .setTargetPlain site target => do
    site.setTargetPlain target
    return .void
  | .setTargetFenced site target => do
    site.setTargetFenced target
    return .void
  | .registerStatic registry owner name member => do
    TypedHandles.registerStatic registry owner name member
    return .void
  | .registerClass registry cls => do
    TypedHandles.registerClass registry cls
    return .void
  | .find lookup request => do return .handle (← lookup.find request)
  | .findMember lookup query => do return .handle (← lookup.findMember query)
  | .cachedConstant cache kind value => do
    return .handle (← TypedHandles.cachedConstant cache kind value)
  | .cachedIdentity cache kind => do return .handle (← TypedHandles.cachedIdentity cache kind)
  | .clearCache cache => do
    TypedHandles.clearCache cache
    return .void
  | .bootstrap lookup point method => announce lookup point ((method lookup point).run run)
  | .resolve linker point method => do
    let linked := announce linker.lookup point ((method linker.lookup point).run run)
    return .callSite (← linker.resolve point linked)
  | .link linker id point method => do
    let linked := announce linker.lookup point ((method linker.lookup point).run run)
    return .callSite (← linker.link id point linked)
  | .unregister linker id => do return optionalSite (← linker.unregister id)
  | .invokePoint linker id point method args => do
    let linked := announce linker.lookup point ((method linker.lookup point).run run)
    let site ← linker.link id point linked
    let target ← site.target
    target.invokeExact run args
  | .count counter => do
    let found ← Exec.ofOption (← get).counters[counter]?
    modify fun s => { s with counters := s.counters.setIfInBounds counter (found + 1) }
    return .long (.ofNat found)

end

/-- Runs a function of the host, and notes in the journal that it did. -/
def callHost (host : Host) (run : Runner) (f : HostFunction) (args : List Value) : Exec Value := do
  Exec.record (.native f args)
  (host f args).run run

/-- Runs code on arguments, at most so many calls deep and with at most so many rounds in a loop.
Whatever code runs, on whatever arguments, passes through the watch. -/
def runWith (watch : Runner → Runner) (host : Host) : Nat → Runner
  | 0 => fun _ _ => throw .exhausted
  | n + 1 => watch fun code args =>
    match code with
    | .action action => action.perform (callHost host (runWith watch host n)) args
    | .program _ p => p.perform (runWith watch host n) n args

/-- Runs code on arguments without a watch. -/
def runCode (host : Host) : Nat → Runner := runWith id host

/-- The bound under which the machine runs; no program that ends comes near it. -/
def runLimit : Nat := 1 <<< 40

/-- Performs an operation for a host. -/
def Operation.execute (host : Host) (operation : Operation) : Exec Value :=
  operation.answer (runCode host runLimit)

end TypedHandles
