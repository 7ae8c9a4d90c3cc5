import TypedHandles.Machine.State
import TypedHandles.Handle.Retype
import TypedHandles.Handle.Arguments

/-!
What a raw action does with its arguments. Functions of the host are handed in as a computation.
-/
namespace TypedHandles

/-- The object that a member action works on: its first argument. -/
def receiver (owner : ClassDef) (args : List Value) : Exec ObjectRef :=
  match args with
  | .object o :: _ => pure o
  | .null :: _ | [] => throwNew .nullPointer s!"receiver of {owner.name} is null"
  | other :: _ => Exec.refuse (other.castFailure (.ofClass owner))

/-- The failure of a member that the receiver does not have. -/
def noMember (o : ObjectRef) (name : String) : Failure := .noSuchMember o.cls.name name

/-- The position of a field in the receiver's own class. -/
def fieldIndex (o : ObjectRef) (name : String) : Exec Nat :=
  match o.cls.fieldIndex? name with
  | some index => pure index
  | none => Exec.refuse (noMember o name)

/-- Arrays whose items are any references, as messages name them. -/
def anyArray : Kind := .arrayOf .object

namespace Intrinsic

/-- What a function of the library does with its arguments. -/
def perform (f : Intrinsic) (args : List Value) : Exec Value := do
  match f with
  | throwArgument =>
    match args with
    | .throwable t :: _ => Exec.refuse (.thrown t)
    | .null :: _ | [] => throwNew .nullPointer "thrown value is null"
    | other :: _ => Exec.refuse (other.castFailure .throwable)
  | arrayItem =>
    match args with
    | .array _ items :: .int index :: _ =>
      match (if index < 0 then none else items[index.toNatClampNeg]?) with
      | some item => return item
      | none =>
        throwNew .indexOutOfBounds
          s!"index {index.toInt} out of bounds for length {items.length}"
    | .null :: _ :: _ => throwNew .nullPointer "array is null"
    | other :: _ :: _ => Exec.refuse (other.castFailure anyArray)
    | _ => throw .stuck
  | arrayLength =>
    match args with
    | .array _ items :: _ => return .int (.ofNat items.length)
    | .null :: _ => throwNew .nullPointer "array is null"
    | other :: _ => Exec.refuse (other.castFailure anyArray)
    | [] => throw .stuck
  | intLess =>
    match args with
    | .int a :: .int b :: _ => return .bool (a < b)
    | _ :: _ :: _ => return .bool false
    | _ => throw .stuck
  | intIncrement =>
    match args with
    | v :: _ => return .int (v.int?.getD 0 + 1)
    | [] => throw .stuck
  | lambda _ implementation instantiated =>
    let bound ← Exec.ofBuild (.allocate (Blueprint.insertArguments implementation 0 args))
    return .handle (← Exec.ofBuild (bound.asType instantiated))

end Intrinsic

/-- What an action does with its arguments. -/
def Action.perform (native : HostFunction → List Value → Exec Value) (action : Action)
    (args : List Value) : Exec Value := do
  match action with
  | .host f => native f args
  | .intrinsic f => f.perform args
  | .virtual owner name =>
    let o ← receiver owner args
    match o.cls.findMethod? name with
    | some method => native method.function args
    | none => Exec.refuse (noMember o name)
  | .getField owner name =>
    let o ← receiver owner args
    let index ← fieldIndex o name
    match (← get).field? o index with
    | some v => return v
    | none => Exec.refuse (noMember o name)
  | .setField owner name =>
    let v := args.getLast?.getD .null
    let o ← receiver owner args.dropLast
    let index ← fieldIndex o name
    if ← o.setField index v then return .void
    else Exec.refuse (noMember o name)
  | .construct c =>
    if args.length != c.fields.length then
      Exec.refuse (.wrongArgumentCount c.fields.length args.length)
    return .object (← newObject c args)

end TypedHandles
