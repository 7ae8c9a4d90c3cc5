import TypedHandles.Handle.Retype

/-!
Trailing arguments and arrays: spreading an array over parameters, collecting parameters into an
array, and handles that collect by themselves when they are called loosely.
-/
namespace TypedHandles
namespace Blueprint

/-- The longest list of kinds that a machine with 64-bit addresses could hold: a kind takes sixteen
bytes, and no list may take `2 ^ 63` bytes. -/
def longestKindList : Nat := 1 <<< 59 - 1

/-- Replaces the trailing `count` parameters by one array, whose items are spread over them. -/
def spreader (target : Handle) (array : Kind) (count : Nat) : Checked Blueprint := do
  let own := target.signature
  let element ← Checked.ofExcept (elementOf array)
  if count > own.arity then Checked.refuse (.illegalArgument (.spreadCount count own))
  let start := own.arity - count
  let signature ← Checked.ofExcept (own.replaceParams start own.arity [array])
  let trailing := own.paramsFrom start
  if let some (offset, param) :=
      (trailing.mapIdx Prod.mk).find? fun (_, param) => !element.isConvertibleTo param then
    Checked.refuse (.adapterMismatch (.spreadElement element (start + offset) param) own signature)
  let chains := trailing.mapIdx fun index param =>
    (start, (fun slot => ⟨element, .spread slot index count⟩) :: Program.conversion element param)
  let (before, args) := Program.layout (start + 1) chains
  return ⟨signature, .calling (start + 1) before target (Program.slots 0 start ++ args)⟩

/-- Replaces the trailing array parameter by `count` parameters, gathered into a fresh array. -/
def collector (target : Handle) (array : Kind) (count : Nat) : Checked Blueprint := do
  let own := target.signature
  let element ← Checked.ofExcept (elementOf array)
  match own.params.getLast? with
  | none => Checked.refuse (.illegalArgument (.nothingToCollect own))
  | some trailing =>
    let last := own.arity - 1
    -- All parameters are listed before their number is compared with anything.
    if last + count > longestKindList then .error .stuck
    if last + count > Signature.maxArity then
      Checked.refuse (.tooManyParameters (last + count) Signature.maxArity)
    let signature ←
      Checked.ofExcept (own.replaceParams last own.arity (List.replicate count element))
    if !array.isViewableAs trailing true then
      Checked.refuse (.adapterMismatch (.collectorArray array trailing) own signature)
    let arity := last + count
    let gathered : Binding := ⟨array, .collect element (Program.slots last arity)⟩
    return ⟨signature, .calling arity [gathered] target (Program.slots 0 last ++ [arity])⟩

end Blueprint

namespace Handle

/-- Lets loose calls collect their trailing arguments into the trailing array parameter, which must
be of the given kind. -/
def asVariableArity (h : Handle) (array : Kind) : Build Handle := do
  if array.element?.isNone || h.signature.params.getLast? != some array then
    Build.refuse (.illegalArgument (.trailingArray h.signature array))
  if h.variableArity then return h
  make h.signature h.program true

/-- Takes back `asVariableArity`. -/
def asFixedArity (h : Handle) : Build Handle :=
  if h.variableArity then make h.signature h.program false else pure h

/-- The number of trailing arguments that a loose call through `caller` collects; none when the
call passes the array itself, or when the handle does not collect. -/
def collectedCount (h : Handle) (caller : Signature) : Checked (Option Nat) := do
  if !h.variableArity then return none
  let fixed := h.arity - 1
  let array ← Checked.ofOption h.signature.params[fixed]?
  let passesArray :=
    caller.arity == h.arity && (caller.params[fixed]?.map (·.isConvertibleTo array)).getD false
  if passesArray then return none
  if caller.arity < fixed then Checked.refuse (.wrongArgumentCount fixed caller.arity)
  return some (caller.arity - fixed)

/-- The handle that a loose call through `caller` runs. -/
def adaptedTo (h : Handle) (caller : Signature) : Build Handle := do
  match ← Build.ofChecked (h.collectedCount caller) with
  | some count =>
    let array ← Build.ofChecked (Checked.ofOption h.signature.params[h.arity - 1]?)
    let collector ← Build.allocate (Blueprint.collector h array count)
    collector.asType caller
  | none => h.asType caller

end Handle
end TypedHandles
