import TypedHandles.Signature
import TypedHandles.Kind.Builtin

/-!
Reading kinds and descriptors. A name that is no keyword and no type of the library is the name of a
class; a leading `#` makes any name the name of a class.
-/
namespace TypedHandles

/-- The primitive of a keyword. -/
def Prim.ofName? (name : String) : Option Prim := all.find? (·.name == name)

/-- The types that have a name of their own. -/
def RefType.named : List RefType :=
  [.object, .number, .string, .throwable, .handle, .signature, .callSite] ++ Prim.all.map .boxed

/-- Finds classes by name: those of the library, where no other is defined under a name. -/
def ClassDef.find? (defined : String → Option ClassDef) (name : String) : Option ClassDef :=
  defined name <|> builtins.find? (·.name == name)

namespace Kind

/-- The kind of a name. -/
def ofName? (defined : String → Option ClassDef) (name : String) : Option Kind :=
  match name.toList with
  | '#' :: rest => (ClassDef.find? defined (String.ofList rest)).map .ofClass
  | _ =>
    if name = "void" then some .void
    else
      (Prim.ofName? name).map .prim
        <|> (RefType.named.find? (·.text == name)).map .ref
        <|> (ClassDef.find? defined name).map .ofClass

/-- The number of `[]` at the end of a name that is given backwards, and what is before them. -/
def arrayDepth : List Char → Nat × List Char
  | ']' :: '[' :: rest =>
    let (depth, base) := arrayDepth rest
    (depth + 1, base)
  | cs => (0, cs)

/-- The arrays of a depth over a kind. -/
def nested : Nat → Kind → Kind
  | 0, k => k
  | n + 1, k => nested n (.arrayOf k)

/-- The kind that a text writes. -/
def read? (defined : String → Option ClassDef) (text : String) : Option Kind := do
  let (depth, base) := arrayDepth text.toList.reverse
  return nested depth (← ofName? defined (String.ofList base.reverse))

end Kind

namespace Signature

/-- The result kind and the parameter kinds that a descriptor `(K,K)R` writes. -/
def readParts? (defined : String → Option ClassDef) (text : String) :
    Option (Kind × List Kind) :=
  match text.toList with
  | '(' :: rest => do
    let inside := rest.takeWhile (· ≠ ')')
    let ret ← Kind.read? defined (String.ofList ((rest.dropWhile (· ≠ ')')).drop 1))
    let names := if inside.isEmpty then [] else (String.ofList inside).splitOn ","
    let params ← names.mapM (Kind.read? defined)
    return (ret, params)
  | _ => none

/-- The signature that a descriptor writes, if the text is one. -/
def read? (defined : String → Option ClassDef) (text : String) :
    Option (Except Failure Signature) :=
  (readParts? defined text).map fun (ret, params) => make ret params

end Signature
end TypedHandles
