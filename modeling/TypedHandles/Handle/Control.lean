import TypedHandles.Handle.Elementary
import TypedHandles.Signature.Adaptation

/-!
Adapters that branch, catch and clean up. Each is one step over all arguments of its target.
-/
namespace TypedHandles
namespace Blueprint

/-- Runs `target` where the test of the leading arguments holds, and `fallback` elsewhere. -/
def branching (test target fallback : Handle) : Checked Blueprint := do
  let signature := target.signature
  if fallback.signature != signature then
    Checked.refuse (.adapterMismatch .guardBranches signature fallback.signature)
  if test.signature.ret != .bool then
    Checked.refuse (.adapterMismatch .guardTestReturn signature test.signature)
  if !signature.startsWith test.signature.params then
    Checked.refuse (.adapterMismatch .guardTestParameters signature test.signature)
  return ⟨signature, .single signature (.branch test target fallback)⟩

/-- Whether the first parameter takes every reference of a type. -/
def acceptsFirst (s : Signature) (type : RefType) : Bool :=
  match s.params with
  | .ref param :: _ => type.isSubtypeOf param
  | _ => false

/-- Hands a throwable of the given type to `handler`, with the leading arguments after it; what the
handler returns takes the place of the failure. -/
def catching (target : Handle) (exception : RefType) (handler : Handle) : Checked Blueprint := do
  if !exception.isThrowable then Checked.refuse (.illegalArgument (.notThrowable exception))
  let signature := target.signature
  if handler.signature.ret != signature.ret then
    Checked.refuse (.adapterMismatch .handlerReturn signature handler.signature)
  if !acceptsFirst handler.signature exception then
    Checked.refuse (.adapterMismatch (.handlerException exception) signature handler.signature)
  if !signature.startsWith (handler.signature.paramsFrom 1) then
    Checked.refuse (.adapterMismatch .handlerParameters signature handler.signature)
  return ⟨signature, .single signature (.catching target exception handler)⟩

/-- Runs `cleanup` after `target` on both paths. It takes the throwable or `null`, then the result
if there is one, then leading arguments. -/
def finishing (target cleanup : Handle) : Checked Blueprint := do
  let signature := target.signature
  if cleanup.signature.ret != signature.ret then
    Checked.refuse (.adapterMismatch .cleanupReturn signature cleanup.signature)
  if !acceptsFirst cleanup.signature .throwable then
    Checked.refuse (.adapterMismatch .cleanupThrowable signature cleanup.signature)
  if !signature.returnsVoid && cleanup.signature.params[1]? != some signature.ret then
    Checked.refuse (.adapterMismatch (.cleanupResult signature.ret) signature cleanup.signature)
  let leading := if signature.returnsVoid then 1 else 2
  if !signature.startsWith (cleanup.signature.paramsFrom leading) then
    Checked.refuse (.adapterMismatch .cleanupParameters signature cleanup.signature)
  return ⟨signature, .single signature (.finishing target cleanup)⟩

/-- The handle that calls whatever a site's target is when it runs. -/
def dynamicInvoker (site : CallSite) : Blueprint :=
  ⟨site.signature, .single site.signature (.dynamic site)⟩

end Blueprint
end TypedHandles
