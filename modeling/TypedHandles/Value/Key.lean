import TypedHandles.Value.Text

/-!
Equality of values, and the keys under which constants are shared.

Equality compares numbers as numbers, so a NaN equals nothing and both zeros are equal; a key keeps
bit patterns apart. Arrays are equal item by item but have no key, as nothing with identity has one.
-/
namespace TypedHandles
namespace Value

mutual

/-- Equality of values. -/
def equal : Value → Value → Bool
  | void, void | null, null => true
  | bool a, bool b => a == b
  | byte a, byte b => a == b
  | short a, short b => a == b
  | char a, char b => a == b
  | int a, int b => a == b
  | long a, long b => a == b
  | float a, float b => BinaryFormat.single.equal a.toNat b.toNat
  | double a, double b => BinaryFormat.double.equal a.toNat b.toNat
  | str a, str b => a == b
  | array a xs, array b ys => a == b && equalLists xs ys
  | object a, object b => a.id == b.id
  | throwable a, throwable b => a.id == b.id
  | handle a, handle b => a.same b
  | signature a, signature b => a == b
  | callSite a, callSite b => a.id == b.id
  | _, _ => false

/-- Equality of lists of values, item by item. -/
def equalLists : List Value → List Value → Bool
  | [], [] => true
  | x :: xs, y :: ys => x.equal y && equalLists xs ys
  | _, _ => false

end

end Value

/-- What two values must share for a constant of one to serve as a constant of the other, once their
kinds agree. -/
inductive ValueKey where
  | null
  | integral (n : Int)
  | bits (pattern : Nat)
  | bool (b : Bool)
  | str (text : String)
  deriving DecidableEq, Repr

/-- The displayed form of a key. -/
def ValueKey.text : ValueKey → String
  | .null => "null"
  | .integral n => toString n
  | .bits pattern => "0x" ++ Text.Quoted.hexPadded 16 pattern
  | .bool b => if b then "true" else "false"
  | .str s => Text.Quoted.quote s

/-- The key of a null, a primitive or a text. -/
def Value.key? : Value → Option ValueKey
  | .null => some .null
  | .bool b => some (.bool b)
  | .byte n => some (.integral n.toInt)
  | .short n => some (.integral n.toInt)
  | .char unit => some (.integral unit.toNat)
  | .int n => some (.integral n.toInt)
  | .long n => some (.integral n.toInt)
  | .float bits => some (.bits bits.toNat)
  | .double bits => some (.bits bits.toNat)
  | .str s => some (.str s)
  | _ => none

end TypedHandles
