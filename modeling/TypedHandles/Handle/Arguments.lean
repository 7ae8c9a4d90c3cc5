import TypedHandles.Handle.Elementary

/-!
Adapters that rewire the arguments of a handle, or compute some of them by other handles.

Each is accepted or refused before anything is made. A position beyond the parameters is an illegal
argument; handles whose kinds do not meet are a mismatch that names both signatures.
-/
namespace TypedHandles
namespace Blueprint

/-- Requires `count` positions from `pos` on to lie within the parameters. -/
def requirePositions (s : Signature) (pos count : Nat) : Checked Unit :=
  if pos > s.arity ∨ count > s.arity - pos then
    Checked.refuse (.illegalArgument (.positions count pos s))
  else .ok ()

/-- Fixes the parameters from `pos` on to values, each fitted to its parameter now. -/
def insertArguments (target : Handle) (pos : Nat) (values : List Value) : Checked Blueprint := do
  let own := target.signature
  requirePositions own pos values.length
  let kinds ← Checked.ofOption (slice? own.params pos (pos + values.length))
  let bound ← Checked.ofExcept ((values.zip kinds).mapM fun (v, kind) => v.coerce kind)
  let signature ← Checked.ofExcept (own.dropParams pos (pos + bound.length))
  let arity := signature.arity
  let constants : List Binding := (kinds.zip bound).map fun (kind, v) => ⟨kind, .const v⟩
  let args :=
    Program.slots 0 pos ++ Program.slots arity (arity + bound.length) ++ Program.slots pos arity
  return ⟨signature, .calling arity constants target args⟩

/-- Adds parameters at `pos` that the target never sees. -/
def insertIgnored (target : Handle) (pos : Nat) (kinds : List Kind) : Checked Blueprint := do
  let signature ← Checked.ofExcept (target.signature.insertParams pos kinds)
  let args := Program.slots 0 pos ++ Program.slots (pos + kinds.length) signature.arity
  return ⟨signature, .calling signature.arity [] target args⟩

/-- Requires that argument `slot` of the target can be fed by parameter `source` of a signature. -/
def requireFeed (own signature : Signature) (slot source : Nat) : Checked Unit := do
  if source ≥ signature.arity then
    Checked.refuse (.illegalArgument (.reorderIndex source signature))
  let supplied ← Checked.ofOption signature.params[source]?
  let wanted ← Checked.ofOption own.params[slot]?
  if supplied != wanted then
    Checked.refuse (.adapterMismatch (.reorderKind source supplied slot wanted) own signature)

/-- Passes parameter `reorder[j]` of the new signature as argument `j`. -/
def permuteArguments (target : Handle) (signature : Signature) (reorder : List Nat) :
    Checked Blueprint := do
  let own := target.signature
  if reorder.length != own.arity then
    Checked.refuse (.adapterMismatch (.reorderLength reorder.length own.arity) own signature)
  if signature.ret != own.ret then
    Checked.refuse (.adapterMismatch .permutedReturn own signature)
  for (slot, source) in reorder.mapIdx Prod.mk do requireFeed own signature slot source
  return ⟨signature, .calling signature.arity [] target reorder⟩

/-- The parameter that takes the place of parameter `slot` under a unary filter. -/
def filteredParam (own : Signature) (slot : Nat) (filter : Handle) : Checked Kind := do
  let param ← Checked.ofOption own.params[slot]?
  match filter.signature.params with
  | [accepted] =>
    if filter.signature.ret != param then
      Checked.refuse (.adapterMismatch (.filterReturn slot param) own filter.signature)
    return accepted
  | _ => Checked.refuse (.adapterMismatch (.filterNotUnary slot) own filter.signature)

/-- The filter of a parameter, when the filters stand from `pos` on. -/
def filterAt (pos : Nat) (filters : List (Option Handle)) (slot : Nat) : Option Handle :=
  if slot < pos then none else (filters[slot - pos]?).join

/-- Passes the arguments from `pos` on through unary filters; a gap lets its argument through. -/
def filterArguments (target : Handle) (pos : Nat) (filters : List (Option Handle)) :
    Checked Blueprint := do
  let own := target.signature
  requirePositions own pos filters.length
  let params ← (own.params.mapIdx Prod.mk).mapM fun (slot, param) =>
    match filterAt pos filters slot with
    | some filter => filteredParam own slot filter
    | none => pure param
  let signature ← Checked.ofExcept (Signature.make own.ret params)
  let chains := own.params.mapIdx fun slot param =>
    (slot, (filterAt pos filters slot).toList.map fun filter => fun s =>
      (⟨param, .call filter [s]⟩ : Binding))
  let (before, args) := Program.layout own.arity chains
  return ⟨signature, .calling own.arity before target args⟩

/-- Passes the result through a filter, which takes nothing when there is no result. -/
def filterReturnValue (target filter : Handle) : Checked Blueprint := do
  let own := target.signature
  let accepted :=
    if own.returnsVoid then filter.signature.params.isEmpty
    else filter.signature.params == [own.ret]
  if !accepted then
    Checked.refuse (.adapterMismatch (.resultFilter own.ret) own filter.signature)
  let signature := own.changeReturn filter.signature.ret
  let called : Binding := ⟨own.ret, .call target (Program.slots 0 own.arity)⟩
  let args := if own.returnsVoid then [] else [own.arity]
  return ⟨signature, .calling own.arity [called] filter args⟩

/-- Replaces argument `pos` by the result of a filter over parameters of its own. A filter without a
result feeds nothing and only adds its parameters. -/
def collectArguments (target : Handle) (pos : Nat) (filter : Handle) : Checked Blueprint := do
  let own := target.signature
  let fed := if filter.signature.returnsVoid then 0 else 1
  requirePositions own pos fed
  let replaced ← Checked.ofOption (slice? own.params pos (pos + fed))
  if let some param := replaced.find? (· != filter.signature.ret) then
    Checked.refuse (.adapterMismatch (.collectedReturn param) own filter.signature)
  let signature ← Checked.ofExcept (own.replaceParams pos (pos + fed) filter.signature.params)
  let width := filter.arity
  let arity := signature.arity
  let computed : Binding :=
    ⟨filter.signature.ret, .call filter (Program.slots pos (pos + width))⟩
  let args :=
    Program.slots 0 pos ++ List.replicate fed arity ++ Program.slots (pos + width) arity
  return ⟨signature, .calling arity [computed] target args⟩

/-- Computes argument `pos` by a combiner from the arguments that follow it. A combiner without a
result runs for its effect. -/
def foldArguments (target : Handle) (pos : Nat) (combiner : Handle) : Checked Blueprint := do
  let own := target.signature
  let folded := if combiner.signature.returnsVoid then 0 else 1
  let width := combiner.arity
  requirePositions own pos (folded + width)
  let replaced ← Checked.ofOption (slice? own.params pos (pos + folded))
  if let some param := replaced.find? (· != combiner.signature.ret) then
    Checked.refuse (.adapterMismatch (.combinerReturn param) own combiner.signature)
  let start := pos + folded
  let following ← Checked.ofOption (slice? own.params start (start + width))
  if following != combiner.signature.params then
    Checked.refuse (.adapterMismatch (.combinerParameters start) own combiner.signature)
  let signature ← Checked.ofExcept (own.dropParams pos (pos + folded))
  let arity := signature.arity
  let computed : Binding :=
    ⟨combiner.signature.ret, .call combiner (Program.slots pos (pos + width))⟩
  let args := Program.slots 0 pos ++ List.replicate folded arity ++ Program.slots pos arity
  return ⟨signature, .calling arity [computed] target args⟩

end Blueprint

namespace Handle

/-- Adds parameters at `pos` that the handle never sees; with none to add it is the same handle. -/
def dropArguments (h : Handle) (pos : Nat) (kinds : List Kind) : Build Handle := do
  Build.ofChecked (Blueprint.requirePositions h.signature pos 0)
  if kinds.isEmpty then return h
  Build.allocate (Blueprint.insertIgnored h pos kinds)

/-- Keeps the first `skip` parameters and takes `kinds` after them. The remaining parameters have to
appear among `kinds` from `pos` on; the other ones are dropped. -/
def dropArgumentsToMatch (h : Handle) (skip : Nat) (kinds : List Kind) (pos : Nat) :
    Build Handle := do
  let own := h.signature
  Build.ofChecked (Blueprint.requirePositions own skip 0)
  let kept := own.paramsFrom skip
  if pos > kinds.length ∨ kept.length > kinds.length - pos then
    Build.refuse (.illegalArgument (.keptTooLong kept.length pos kinds.length))
  let wanted ←
    Build.ofChecked (Checked.ofExcept (Signature.make own.ret (own.params.take skip ++ kinds)))
  let found ← Build.ofChecked (Checked.ofOption (slice? kinds pos (pos + kept.length)))
  if found != kept then Build.refuse (.adapterMismatch (.keptParameters skip pos) wanted own)
  let leading ← h.dropArguments skip (kinds.take pos)
  leading.dropArguments leading.arity (kinds.drop (pos + kept.length))

end Handle
end TypedHandles
