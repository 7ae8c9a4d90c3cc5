/-!
Primitive kinds: their names, their wrappers, and the widening order between them.
-/
namespace TypedHandles

/-- A primitive kind of value. -/
inductive Prim where
  | bool | byte | short | char | int | long | float | double
  deriving DecidableEq, Repr

namespace Prim

/-- Every primitive kind, narrow ones first. -/
def all : List Prim := [.bool, .byte, .short, .char, .int, .long, .float, .double]

/-- The keyword that names a primitive kind. -/
def name : Prim → String
  | .bool => "boolean"
  | .byte => "byte"
  | .short => "short"
  | .char => "char"
  | .int => "int"
  | .long => "long"
  | .float => "float"
  | .double => "double"

/-- The name of the reference type that holds a boxed value of this kind. -/
def wrapperName : Prim → String
  | .bool => "Boolean"
  | .byte => "Byte"
  | .short => "Short"
  | .char => "Character"
  | .int => "Integer"
  | .long => "Long"
  | .float => "Float"
  | .double => "Double"

/-- Numbers are all primitives but booleans and characters; their wrappers lie below `Number`. -/
def isNumeric : Prim → Bool
  | .bool | .char => false
  | _ => true

/-- A kind widens to itself and to every kind that can take over its values: the numbers in the
order of their width, and characters to `int` and above. -/
def widensTo : Prim → Prim → Bool
  | .bool, .bool => true
  | .byte, .byte | .byte, .short | .byte, .int | .byte, .long | .byte, .float | .byte, .double =>
    true
  | .short, .short | .short, .int | .short, .long | .short, .float | .short, .double => true
  | .char, .char | .char, .int | .char, .long | .char, .float | .char, .double => true
  | .int, .int | .int, .long | .int, .float | .int, .double => true
  | .long, .long | .long, .float | .long, .double => true
  | .float, .float | .float, .double => true
  | .double, .double => true
  | _, _ => false

theorem widensTo_refl (p : Prim) : p.widensTo p = true := by cases p <;> rfl

theorem mem_all (p : Prim) : p ∈ all := by cases p <;> decide

end Prim

instance : ToString Prim := ⟨Prim.name⟩

end TypedHandles
