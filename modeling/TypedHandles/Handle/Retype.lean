import TypedHandles.Handle.Elementary
import TypedHandles.Signature.Adaptation

/-!
Handles at another signature. Where no representation changes the new handle shares the program;
elsewhere it converts each argument, calls the old handle and converts the result.
-/
namespace TypedHandles
namespace Blueprint

/-- The adapter that converts every argument and the result. -/
def converting (target : Handle) (signature : Signature) : Blueprint :=
  let own := target.signature
  let arity := signature.arity
  let chains := (own.params.zip signature.params).mapIdx fun slot (param, wanted) =>
    (slot, Program.conversion wanted param)
  let (before, args) := Program.layout arity chains
  let called := arity + before.length
  let (after, result) :=
    Program.chain (called + 1) called (Program.conversion own.ret signature.ret)
  ⟨signature, ⟨arity, before ++ ⟨own.ret, .call target args⟩ :: after,
    Program.resultSlot signature.ret result⟩⟩

/-- The same program read at another signature. -/
def sharing (target : Handle) (signature : Signature) : Blueprint := ⟨signature, target.program⟩

/-- The adapter of a handle to a signature: it shares the program where that will do. -/
def adapting (target : Handle) (signature : Signature) : Blueprint :=
  if target.signature.isViewableAs signature true then sharing target signature
  else converting target signature

end Blueprint

namespace Handle

/-- Adapts a handle to a signature under loose conversion. The handle itself serves its own
signature, and the last adapter made from it is used again for an equal signature. -/
def asType (h : Handle) (signature : Signature) : Build Handle := do
  let own := h.signature
  if own == signature then return h
  match ((← get).adapter? h).filter (·.signature == signature) with
  | some adapter => return adapter
  | none =>
    if !own.isConvertibleTo signature then Build.refuse (.signatureMismatch signature own)
    let adapter ← (Blueprint.adapting h signature).make
    modify (·.remember h adapter)
    return adapter

/-- Reads a handle at a signature that it is viewable as. A strict view shares the program; a
lenient one may widen primitives, so it converts. -/
def viewAs (h : Handle) (signature : Signature) (strict : Bool) : Build Handle := do
  let own := h.signature
  if own == signature then return h
  if !own.isViewableAs signature strict then Build.refuse (.signatureMismatch signature own)
  (if strict then Blueprint.sharing h signature else Blueprint.converting h signature).make

end Handle
end TypedHandles
