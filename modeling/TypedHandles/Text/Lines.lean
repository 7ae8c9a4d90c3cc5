/-!
Texts as lines.
-/
namespace TypedHandles.Text

/-- The characters that count as blank. -/
def isBlank (c : Char) : Bool :=
  let n := c.toNat
  (0x09 ≤ n && n ≤ 0x0d) || n = 0x20 || n = 0x85 || n = 0xa0 || n = 0x1680 ||
    (0x2000 ≤ n && n ≤ 0x200a) || n = 0x2028 || n = 0x2029 || n = 0x202f || n = 0x205f || n = 0x3000

/-- A line without the blanks before it. -/
def stripBlanks (line : String) : String := String.ofList (line.toList.dropWhile isBlank)

/-- A line without a carriage return at its end. -/
def stripReturn (line : String) : String :=
  match line.toList.reverse with
  | '\r' :: rest => String.ofList rest.reverse
  | _ => line

/-- The lines of a text in which every line has its end. -/
def lines (text : String) : List String := (text.splitOn "\n").dropLast.map stripReturn

end TypedHandles.Text
