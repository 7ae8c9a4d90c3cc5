/-!
A reader for JSON texts. It accepts exactly the texts of the grammar. Numbers are checked and not
evaluated. A string whose escapes hold half of a surrogate pair alone is read, but has no text.
-/
namespace TypedHandles

/-- A JSON value. -/
inductive Json where
  | null
  | bool (b : Bool)
  | number
  | str (text : Option String)
  | array (items : List Json)
  | object (members : List (Option String × Json))

namespace Json

/-- Drops blanks, tabs and line ends. -/
def skipBlanks (cs : List Char) : List Char :=
  cs.dropWhile fun c => c = ' ' || c = '\n' || c = '\t' || c = '\r'

/-- The value of a hexadecimal digit. -/
def hexDigit? (c : Char) : Option Nat :=
  if '0' ≤ c ∧ c ≤ '9' then some (c.toNat - '0'.toNat)
  else if 'a' ≤ c ∧ c ≤ 'f' then some (c.toNat - 'a'.toNat + 10)
  else if 'A' ≤ c ∧ c ≤ 'F' then some (c.toNat - 'A'.toNat + 10)
  else none

/-- The code unit that four hexadecimal digits stand for. -/
def unit? (a b c d : Char) : Option Nat := do
  return ((← hexDigit? a) * 16 + (← hexDigit? b)) * 256 + (← hexDigit? c) * 16 + (← hexDigit? d)

/-- The character that an escape of one letter stands for. -/
def escaped? : Char → Option Char
  | '"' => some '"'
  | '\\' => some '\\'
  | '/' => some '/'
  | 'b' => some '\x08'
  | 'f' => some '\x0c'
  | 'n' => some '\n'
  | 'r' => some '\r'
  | 't' => some '\t'
  | _ => none

/-- The code units of a string from behind its opening quote, and what follows the closing one. A
character that is not escaped counts as one unit by its code point. -/
def units : List Char → Option (List (Nat × Bool) × List Char)
  | [] => none
  | '"' :: rest => some ([], rest)
  | '\\' :: 'u' :: a :: b :: c :: d :: rest => do
    let unit ← unit? a b c d
    let (more, rest) ← units rest
    return ((unit, true) :: more, rest)
  | '\\' :: c :: rest => do
    let escaped ← escaped? c
    let (more, rest) ← units rest
    return ((escaped.toNat, false) :: more, rest)
  | c :: rest => do
    if c.toNat < 0x20 then none
    let (more, rest) ← units rest
    return ((c.toNat, false) :: more, rest)

/-- Joins the surrogate pairs among escaped units; half a pair alone has no text. -/
def joinPairs : List (Nat × Bool) → Option (List Char)
  | [] => some []
  | (high, true) :: (low, true) :: rest =>
    if 0xd800 ≤ high ∧ high < 0xdc00 then
      if 0xdc00 ≤ low ∧ low < 0xe000 then
        (joinPairs rest).map (Char.ofNat (0x10000 + (high - 0xd800) * 0x400 + (low - 0xdc00)) :: ·)
      else none
    else if 0xdc00 ≤ high ∧ high < 0xe000 then none
    else (joinPairs ((low, true) :: rest)).map (Char.ofNat high :: ·)
  | (unit, _) :: rest =>
    if 0xd800 ≤ unit ∧ unit < 0xe000 then none
    else (joinPairs rest).map (Char.ofNat unit :: ·)
termination_by us => us.length

/-- A string from behind its opening quote. -/
def string (cs : List Char) : Option (Option String × List Char) := do
  let (found, rest) ← units cs
  return ((joinPairs found).map String.ofList, rest)

/-- Drops one digit or more. -/
def digits : List Char → Option (List Char)
  | c :: rest => if c.isDigit then some (rest.dropWhile Char.isDigit) else none
  | [] => none

/-- Drops a fraction, if there is one. -/
def fraction : List Char → Option (List Char)
  | '.' :: rest => digits rest
  | cs => some cs

/-- Drops an exponent, if there is one. -/
def exponent : List Char → Option (List Char)
  | e :: rest =>
    if e = 'e' || e = 'E' then
      match rest with
      | '+' :: more | '-' :: more => digits more
      | more => digits more
    else some (e :: rest)
  | [] => some []

/-- Drops a number without its sign: no zero leads other digits. -/
def unsigned (cs : List Char) : Option (List Char) := do
  let whole ←
    match cs with
    | '0' :: rest => if (rest.head?.map Char.isDigit).getD false then none else some rest
    | _ => digits cs
  exponent (← fraction whole)

mutual

/-- A value at the start of a text, and what follows it. The first argument bounds the nesting. -/
def value : Nat → List Char → Option (Json × List Char)
  | 0, _ => none
  | n + 1, cs =>
    match skipBlanks cs with
    | 'n' :: 'u' :: 'l' :: 'l' :: rest => some (.null, rest)
    | 't' :: 'r' :: 'u' :: 'e' :: rest => some (.bool true, rest)
    | 'f' :: 'a' :: 'l' :: 's' :: 'e' :: rest => some (.bool false, rest)
    | '"' :: rest => (string rest).map fun (text, rest) => (.str text, rest)
    | '[' :: rest =>
      match skipBlanks rest with
      | ']' :: rest => some (.array [], rest)
      | _ => (items n rest).map fun (found, rest) => (.array found, rest)
    | '\x7b' :: rest =>
      match skipBlanks rest with
      | '\x7d' :: rest => some (.object [], rest)
      | _ => (members n rest).map fun (found, rest) => (.object found, rest)
    | '-' :: rest => (unsigned rest).map fun rest => (.number, rest)
    | rest => (unsigned rest).map fun rest => (.number, rest)

/-- The items of an array up to its closing bracket. -/
def items : Nat → List Char → Option (List Json × List Char)
  | 0, _ => none
  | n + 1, cs =>
    match value n cs with
    | none => none
    | some (first, rest) =>
      match skipBlanks rest with
      | ']' :: rest => some ([first], rest)
      | ',' :: rest => (items n rest).map fun (more, rest) => (first :: more, rest)
      | _ => none

/-- The members of an object up to its closing brace. -/
def members : Nat → List Char → Option (List (Option String × Json) × List Char)
  | 0, _ => none
  | n + 1, cs =>
    match skipBlanks cs with
    | '"' :: rest =>
      match string rest with
      | none => none
      | some (key, rest) =>
        match skipBlanks rest with
        | ':' :: rest =>
          match value n rest with
          | none => none
          | some (found, rest) =>
            match skipBlanks rest with
            | '\x7d' :: rest => some ([(key, found)], rest)
            | ',' :: rest => (members n rest).map fun (more, rest) => ((key, found) :: more, rest)
            | _ => none
        | _ => none
    | _ => none

end

/-- The value that a whole text writes. Every bracket, comma and value takes a character, so the
length of the text bounds the nesting. -/
def read? (text : String) : Option Json :=
  let cs := text.toList
  match value (cs.length + 1) cs with
  | some (found, rest) => if (skipBlanks rest).isEmpty then some found else none
  | none => none

end Json
end TypedHandles
