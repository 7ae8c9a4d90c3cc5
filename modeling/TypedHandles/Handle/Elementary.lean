import TypedHandles.Handle.Build
import TypedHandles.Program.Wiring
import TypedHandles.Value.Convert

/-!
Handles that are made from kinds, values and actions alone.
-/
namespace TypedHandles
namespace Blueprint

/-- The handle that performs one action on all of its arguments. -/
def ofAction (signature : Signature) (action : Action) : Blueprint :=
  ⟨signature, .single signature (.leaf action)⟩

/-- `(kind) -> kind`, which returns its argument. -/
def identity (kind : Kind) : Except Failure Blueprint := do
  let signature ← Signature.make kind [kind]
  return ⟨signature, ⟨1, [], Program.resultSlot kind 0⟩⟩

/-- `() -> kind`, which returns a value; the value is fitted to the kind now. -/
def constant (kind : Kind) (value : Value) : Except Failure Blueprint := do
  let value ← value.coerce kind
  let signature ← Signature.make kind []
  return ⟨signature, .single signature fun _ => .const value⟩

/-- The handle of a signature that ignores its arguments and returns the zero of its result. -/
def empty (signature : Signature) : Blueprint :=
  ⟨signature, .single signature fun _ => .const (.zero signature.ret)⟩

/-- `() -> kind`, which returns the zero of the kind. -/
def zero (kind : Kind) : Except Failure Blueprint := do
  let signature ← Signature.make kind []
  return empty signature

/-- `(exception) -> ret`, which throws its argument. -/
def throwException (ret : Kind) (exception : RefType) : Except Failure Blueprint := do
  if !exception.isThrowable then throw (.illegalArgument (.notThrowable exception))
  let signature ← Signature.make ret [.ref exception]
  return ofAction signature (.intrinsic .throwArgument)

/-- The element kind of an array kind; other kinds are refused. -/
def elementOf (array : Kind) : Except Failure Kind :=
  match array.element? with
  | some element => .ok element
  | none => .error (.illegalArgument (.notArray array))

/-- `(array, int) -> element`. -/
def arrayItem (array : Kind) : Except Failure Blueprint := do
  let element ← elementOf array
  let signature ← Signature.make element [array, .int]
  return ofAction signature (.intrinsic .arrayItem)

/-- `(array) -> int`. -/
def arrayLength (array : Kind) : Except Failure Blueprint := do
  let _ ← elementOf array
  let signature ← Signature.make .int [array]
  return ofAction signature (.intrinsic .arrayLength)

/-- `(int, int) -> boolean`: whether the first is below the second. -/
def intLess : Except Failure Blueprint := do
  let signature ← Signature.make .bool [.int, .int]
  return ofAction signature (.intrinsic .intLess)

/-- `(int) -> int`: the next number, wrapping at the end. -/
def intIncrement : Except Failure Blueprint := do
  let signature ← Signature.make .int [.int]
  return ofAction signature (.intrinsic .intIncrement)

end Blueprint

/-- Makes the handle of a blueprint that was not refused. -/
def Build.accept (b : Except Failure Blueprint) : Build Handle := allocate (.ofExcept b)

end TypedHandles
