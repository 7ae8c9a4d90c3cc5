import TypedHandles.Prim

/-!
Kinds of values, and the reference types, classes and signatures that they are built from.

The five notions refer to each other: a kind may be a class, a class declares methods, and a method
has a signature over kinds. Classes are told apart by name alone, so two kinds are compared with
`Kind.same`, which never looks inside a class; the comparison is the `==` of every type here.
-/
namespace TypedHandles

/-- A function that the host supplies. Two host functions are the same when their numbers are; the
name is only what listings show. -/
structure HostFunction where
  id : Nat
  name : String
  deriving DecidableEq, Repr

mutual

/-- The kind of a parameter, of a result or of a field. Only a result may be `void`. -/
inductive Kind where
  | void
  | prim (prim : Prim)
  | ref (type : RefType)

/-- The static type of a reference. -/
inductive RefType where
  | object | number | string | throwable
  | boxed (prim : Prim)
  | array (element : Kind)
  | handle | signature | callSite
  | cls (definition : ClassDef)

/-- A declared class. Without a superclass it lies directly below `Object`. -/
structure ClassDef where
  name : String
  superclass : Option RefType
  isFinal : Bool
  fields : List (String × Kind)
  methods : List (String × Method)

/-- A method of a class. Its signature leaves the receiver out; the function gets it first. -/
structure Method where
  signature : Signature
  function : HostFunction
  isPrivate : Bool

/-- The kinds of a function's parameters, in order, and the kind of its result. -/
structure Signature where
  ret : Kind
  params : List Kind

end

mutual

/-- Whether two kinds are the same kind. -/
def Kind.same : Kind → Kind → Bool
  | .void, .void => true
  | .prim p, .prim q => p == q
  | .ref r, .ref s => r.same s
  | _, _ => false

/-- Whether two reference types are the same type; classes are the same when their names are. -/
def RefType.same : RefType → RefType → Bool
  | .object, .object => true
  | .number, .number => true
  | .string, .string => true
  | .throwable, .throwable => true
  | .boxed p, .boxed q => p == q
  | .array a, .array b => a.same b
  | .handle, .handle => true
  | .signature, .signature => true
  | .callSite, .callSite => true
  | .cls c, .cls d => c.name == d.name
  | _, _ => false

end

instance : BEq Kind := ⟨Kind.same⟩
instance : BEq RefType := ⟨RefType.same⟩

/-- Two signatures are equal when their results and parameters are, kind by kind. -/
instance : BEq Signature := ⟨fun s t => s.ret == t.ret && s.params == t.params⟩

mutual

/-- The text of a kind: the keyword or the name of the type, with `[]` after an element kind. -/
def Kind.text : Kind → String
  | .void => "void"
  | .prim p => p.name
  | .ref r => r.text

/-- The name of a reference type. -/
def RefType.text : RefType → String
  | .object => "Object"
  | .number => "Number"
  | .string => "String"
  | .throwable => "Throwable"
  | .boxed p => p.wrapperName
  | .array element => element.text ++ "[]"
  | .handle => "Handle"
  | .signature => "Signature"
  | .callSite => "CallSite"
  | .cls c => c.name

end

instance : ToString Kind := ⟨Kind.text⟩
instance : ToString RefType := ⟨RefType.text⟩

namespace Kind

/-- The kind of the boolean primitives. -/
abbrev bool : Kind := .prim .bool
/-- The kind of the 32-bit integers. -/
abbrev int : Kind := .prim .int
/-- The kind above every reference. -/
abbrev object : Kind := .ref .object
/-- The kind of all throwables. -/
abbrev throwable : Kind := .ref .throwable

/-- Arrays over an element kind. -/
def arrayOf (element : Kind) : Kind := .ref (.array element)

/-- References to instances of a class. -/
def ofClass (c : ClassDef) : Kind := .ref (.cls c)

def isVoid : Kind → Bool
  | .void => true
  | _ => false

/-- The primitive that a kind is, if it is one. -/
def prim? : Kind → Option Prim
  | .prim p => some p
  | _ => none

/-- The reference type that a kind is, if it is one. -/
def refType? : Kind → Option RefType
  | .ref r => some r
  | _ => none

/-- The element kind of an array kind. -/
def element? : Kind → Option Kind
  | .ref (.array element) => some element
  | _ => none

/-- Every reference kind erases to `Object`; the others stay. -/
def erase : Kind → Kind
  | .ref _ => object
  | k => k

@[simp] theorem isVoid_iff {k : Kind} : k.isVoid = true ↔ k = .void := by
  cases k <;> simp [isVoid]

end Kind

mutual

@[simp] theorem Kind.same_refl : (k : Kind) → k.same k = true
  | .void => by simp [Kind.same]
  | .prim p => by simp [Kind.same]
  | .ref r => by simp [Kind.same, RefType.same_refl r]

@[simp] theorem RefType.same_refl : (r : RefType) → r.same r = true
  | .object | .number | .string | .throwable | .handle | .signature | .callSite => by
    simp [RefType.same]
  | .boxed p => by simp [RefType.same]
  | .array element => by simp [RefType.same, Kind.same_refl element]
  | .cls c => by simp [RefType.same]

end

instance : ReflBEq Kind := ⟨Kind.same_refl _⟩
instance : ReflBEq RefType := ⟨RefType.same_refl _⟩
instance : ReflBEq Signature where
  rfl {s} := by
    show (s.ret == s.ret && s.params == s.params) = true
    simp

namespace ClassDef

/-- The position of a field that the class itself declares; inherited fields have none. -/
def fieldIndex? (c : ClassDef) (name : String) : Option Nat :=
  c.fields.findIdx? (·.1 == name)

/-- The method of a name that the class or its nearest ancestor declares. -/
def findMethod? : ClassDef → String → Option Method
  | ⟨_, superclass, _, _, methods⟩, name =>
    match methods.lookup name with
    | some method => some method
    | none =>
      match superclass with
      | some (.cls parent) => parent.findMethod? name
      | _ => none
termination_by structural c => c

/-- Declares a method; a method of the same name declared before it is replaced. -/
def withMethod (c : ClassDef) (name : String) (method : Method) : ClassDef :=
  { c with methods := c.methods.filter (·.1 != name) ++ [(name, method)] }

end ClassDef

end TypedHandles
