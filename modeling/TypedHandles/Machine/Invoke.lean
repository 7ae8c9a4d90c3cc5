import TypedHandles.Machine.Step
import TypedHandles.Handle.Spread

/-!
Invoking handles from outside: exactly, where every argument has to belong to its parameter, or
loosely, where arguments and result are converted by an adapter.
-/
namespace TypedHandles
namespace Handle

/-- Requires the arguments of an exact call to belong to the parameters. A primitive parameter
reports both signatures, a reference parameter the cast. -/
def checkArguments (h : Handle) (args : List Value) : Except Failure Unit :=
  if args.length ≠ h.arity then .error (.wrongArgumentCount h.arity args.length)
  else
    match (args.zip h.signature.params).find? fun (v, kind) => !v.conforms kind with
    | none => .ok ()
    | some (_, .prim _) => do
      let actual ← Signature.ofValues h.signature.ret args
      throw (.signatureMismatch h.signature actual)
    | some (v, kind) => .error (v.castFailure kind)

variable (run : Runner)

/-- Invokes a handle exactly. -/
def invokeExact (h : Handle) (args : List Value) : Exec Value := do
  Exec.ofExcept (h.checkArguments args)
  run.call h args

/-- Invokes a handle as if through a caller of another signature. -/
def invokeAs (h : Handle) (caller : Signature) (args : List Value) : Exec Value := do
  let adapted ← Exec.ofBuild (h.adaptedTo caller)
  adapted.invokeExact run args

/-- Invokes a handle loosely, through the signature that the arguments have by themselves. -/
def invoke (h : Handle) (args : List Value) : Exec Value := do
  if !h.variableArity && args.length != h.arity then
    Exec.refuse (.wrongArgumentCount h.arity args.length)
  let caller ← Exec.ofExcept (Signature.ofValues h.signature.ret args)
  h.invokeAs run caller args

end Handle
end TypedHandles
