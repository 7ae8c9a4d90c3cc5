import TypedHandles.Value
import TypedHandles.Decimal.Shortest
import TypedHandles.Text.Quoted

/-!
The displayed form of a value.
-/
namespace TypedHandles
namespace Value

/-- A code unit between single quotes; one that is no character by itself is written by number. -/
def charText (unit : UInt16) : String :=
  if h : unit.toNat.isValidChar then
    "'" ++ (Char.ofNatAux unit.toNat h).toString ++ "'"
  else "'\\u\x7b" ++ Text.Quoted.hexPadded 4 unit.toNat ++ "\x7d'"

mutual

/-- The displayed form of a value. Texts are not escaped, and what has identity shows its type. -/
def text : Value → String
  | void => "void"
  | null => "null"
  | bool b => if b then "true" else "false"
  | byte n => toString n.toInt
  | short n => toString n.toInt
  | char unit => charText unit
  | int n => toString n.toInt
  | long n => toString n.toInt ++ "L"
  | float bits => Decimal.text .single bits.toNat ++ "f"
  | double bits => Decimal.text .double bits.toNat
  | str s => "\"" ++ s ++ "\""
  | array _ items => "[" ++ ", ".intercalate (texts items) ++ "]"
  | object o => "<" ++ o.cls.name ++ ">"
  | throwable t => "<" ++ t.text ++ ">"
  | handle h => "<handle " ++ h.signature.text ++ ">"
  | signature s => s.text
  | callSite site => "<call site " ++ site.signature.text ++ ">"

/-- The displayed forms of several values. -/
def texts : List Value → List String
  | [] => []
  | v :: rest => v.text :: texts rest

end

theorem texts_eq_map (vs : List Value) : texts vs = vs.map text := by
  induction vs with
  | nil => rfl
  | cons v rest ih => simp [texts, ih]

end Value
end TypedHandles
