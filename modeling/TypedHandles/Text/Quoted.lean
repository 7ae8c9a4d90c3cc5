import TypedHandles.Text.Unprintable

/-!
Quoted text. A quote and a backslash get a backslash; NUL, tab, line feed and carriage return have
escapes of one letter; every other character without a printed form is written by its number, in
hexadecimal and braces.
-/
namespace TypedHandles.Text.Quoted

/-- The lower-case hexadecimal digits of a number, as few as it needs. -/
def hex (n : Nat) : String := String.ofList (Nat.toDigits 16 n)

/-- The digits of `hex`, filled up with zeros on the left to a width. -/
def hexPadded (width n : Nat) : String :=
  let digits := Nat.toDigits 16 n
  String.ofList (List.replicate (width - digits.length) '0' ++ digits)

/-- What a character becomes inside quotes. -/
def escape (c : Char) : String :=
  if c = '\x00' then "\\0"
  else if c = '\t' then "\\t"
  else if c = '\r' then "\\r"
  else if c = '\n' then "\\n"
  else if c = '"' then "\\\""
  else if c = '\\' then "\\\\"
  else if Unprintable.contains c then "\\u\x7b" ++ hex c.toNat ++ "\x7d"
  else c.toString

/-- A text between quotes. -/
def quote (s : String) : String := "\"" ++ String.join (s.toList.map escape) ++ "\""

end TypedHandles.Text.Quoted
