import TypedHandles.Value
import TypedHandles.Binary
import TypedHandles.Kind.Conversion

/-!
Conversions of values. They carry out what the conversion relation between kinds admits, and settle
what only the value can: whether a reference is an instance of a type, and whether it unboxes.
-/
namespace TypedHandles
namespace Value

/-- A value of one type is asked to be of another. A boxed value shows the name of its wrapper. -/
def castFailure (v : Value) (target : Kind) : Failure :=
  let found :=
    match v.refType? with
    | some t => t.text
    | none => v.typeName
  .classCast found target.text

/-- The whole number that a primitive of an integral kind holds. -/
def integral? : Value → Option Int
  | byte n => some n.toInt
  | short n => some n.toInt
  | char unit => some unit.toNat
  | int n => some n.toInt
  | long n => some n.toInt
  | _ => none

/-- The value of a numeric kind for a whole number: exact for the integers, the nearest for the
floating-point kinds. -/
def ofInt? (n : Int) : Prim → Option Value
  | .short => some (short (.ofInt n))
  | .int => some (int (.ofInt n))
  | .long => some (long (.ofInt n))
  | .float => some (float (.ofNat (BinaryFormat.single.ofInt n)))
  | .double => some (double (.ofNat (BinaryFormat.double.ofInt n)))
  | _ => none

/-- Widens a primitive value; its own kind must widen to the target. -/
def widen (v : Value) (target : Prim) : Except Failure Value :=
  match v.prim? with
  | none => .error (v.castFailure (.prim target))
  | some p =>
    if p = target then .ok v
    else if p.widensTo target then
      match v, target with
      | float bits, .double =>
        .ok (double (.ofNat (BinaryFormat.single.widen .double bits.toNat)))
      | _, _ =>
        match v.integral?.bind (ofInt? · target) with
        | some w => .ok w
        | none => .error (v.castFailure (.prim target))
    else .error (v.castFailure (.prim target))

/-- Unboxes a reference into a primitive kind and widens it there. -/
def unbox (v : Value) (target : Prim) : Except Failure Value :=
  match v.prim? with
  | some p => if p.widensTo target then v.widen target else .error (v.castFailure (.prim target))
  | none => .error (v.castFailure (.prim target))

/-- Passes on `null` and the instances of a type. -/
def checkCast (v : Value) (target : RefType) : Except Failure Value :=
  match v, v.refType? with
  | null, _ => .ok v
  | _, some t => if t.isSubtypeOf target then .ok v else .error (v.castFailure (.ref target))
  | _, none => .error (v.castFailure (.ref target))

/-- Converts a value of the static kind `source` to the kind `target`. -/
def convert (v : Value) (source target : Kind) : Except Failure Value :=
  if source == target then .ok v
  else
    match source, target with
    | _, .void => .ok void
    | .void, _ => .ok (zero target)
    | .prim _, .prim q => v.widen q
    | .prim p, .ref t =>
      match p.boxTarget? t with
      | some q => v.widen q
      | none => .error (v.castFailure target)
    | .ref _, .prim q => v.unbox q
    | .ref _, .ref t => v.checkCast t

/-- Whether an argument of an exact call belongs to its declared kind: a primitive must be of that
very kind, a reference must be `null` or an instance. -/
def conforms (v : Value) : Kind → Bool
  | .void => match v with | void => true | _ => false
  | .prim p => v.prim? == some p
  | .ref t =>
    match v, v.refType? with
    | null, _ => true
    | _, some s => s.isSubtypeOf t
    | _, none => false

/-- Fits a constant into a declared kind ahead of any call: primitives are unboxed and widened,
references are checked. -/
def coerce (v : Value) (kind : Kind) : Except Failure Value :=
  match kind with
  | .void => .error (.illegalArgument .voidSlot)
  | .prim p => v.unbox p
  | .ref t =>
    match v.prim? with
    | some p =>
      match p.boxTarget? t with
      | some q => v.widen q
      | none => .error (v.castFailure kind)
    | none => v.checkCast t

end Value
end TypedHandles
