import TypedHandles.Program.Listing

/-!
The structure of a program as one line of text, with every notion under its name.
-/
namespace TypedHandles

/-- A notion with its named parts. -/
def record (name : String) (parts : List (String × String)) : String :=
  let part : String × String → String := fun (key, text) => key ++ ": " ++ text
  name ++ " \x7b " ++ ", ".intercalate (parts.map part) ++ " \x7d"

/-- The texts of some items between brackets. -/
def bracketed (items : List String) : String := "[" ++ ", ".intercalate items ++ "]"

/-- An optional text, marked. -/
def optional : Option String → String
  | none => "None"
  | some text => "Some(" ++ text ++ ")"

/-- The name of a primitive as a notion. -/
def Prim.label : Prim → String
  | .bool => "Bool"
  | .byte => "Byte"
  | .short => "Short"
  | .char => "Char"
  | .int => "Int"
  | .long => "Long"
  | .float => "Float"
  | .double => "Double"

/-- A host function as a notion. -/
def HostFunction.structure (f : HostFunction) : String := "NativeFunction(" ++ f.name ++ ")"

mutual

/-- The structure of a kind. -/
def Kind.structure : Kind → String
  | .void => "Void"
  | .prim p => "Prim(" ++ p.label ++ ")"
  | .ref t => "Ref(" ++ t.structure ++ ")"

/-- The structure of a reference type. -/
def RefType.structure : RefType → String
  | .object => "Object"
  | .number => "Number"
  | .string => "String"
  | .throwable => "Throwable"
  | .boxed p => "Boxed(" ++ p.label ++ ")"
  | .array element => "Array(" ++ element.structure ++ ")"
  | .handle => "Handle"
  | .signature => "Signature"
  | .callSite => "CallSite"
  | .cls c => "Class(" ++ c.structure ++ ")"

/-- The structure of a class. -/
def ClassDef.structure : ClassDef → String
  | ⟨name, superclass, isFinal, fields, methods⟩ =>
    record "ClassDef"
      [("name", Text.Quoted.quote name),
        ("superclass",
          match superclass with
          | none => "None"
          | some t => "Some(" ++ t.structure ++ ")"),
        ("is_final", if isFinal then "true" else "false"),
        ("fields", bracketed (fieldStructures fields)),
        ("methods", "\x7b" ++ ", ".intercalate (methods.map fun (name, m) =>
          Text.Quoted.quote name ++ ": " ++ record "MethodDef"
            [("signature", m.signature.label),
              ("function", m.function.structure),
              ("private", if m.isPrivate then "true" else "false")]) ++ "\x7d")]

/-- The structure of the fields of a class. -/
def fieldStructures : List (String × Kind) → List String
  | [] => []
  | (name, kind) :: rest =>
    ("(" ++ Text.Quoted.quote name ++ ", " ++ kind.structure ++ ")") :: fieldStructures rest

end

/-- The structure of some slots. -/
def slotStructure (args : List Slot) : String := bracketed (args.map toString)

/-- The structure of a step. Steps that hold handles show their signatures. -/
def Step.structure : Step → String
  | .const v => "Const(" ++ v.text ++ ")"
  | .convert slot source target =>
    record "Convert"
      [("slot", toString slot), ("from", source.structure), ("to", target.structure)]
  | .leaf action args => record "Leaf" [("action", action.text), ("args", slotStructure args)]
  | .call target args =>
    record "Call" [("target", target.signature.text), ("args", slotStructure args)]
  | .branch test target fallback args =>
    record "Guard"
      [("test", test.signature.text), ("target", target.signature.text),
        ("fallback", fallback.signature.text), ("args", slotStructure args)]
  | .catching target exception handler args =>
    record "Catch"
      [("target", target.signature.text), ("exception", exception.structure),
        ("handler", handler.signature.text), ("args", slotStructure args)]
  | .finishing target cleanup args =>
    record "Finally"
      [("target", target.signature.text), ("cleanup", cleanup.signature.text),
        ("args", slotStructure args)]
  | .loop plan args =>
    let plan := record "LoopPlan"
      [("clauses", toString plan.clauses.length),
        ("carried", bracketed (plan.carried.map Kind.structure))]
    record "Loop" [("plan", plan), ("args", slotStructure args)]
  | .collect element args =>
    record "Collect" [("element", element.structure), ("args", slotStructure args)]
  | .spread slot index length =>
    record "Spread"
      [("slot", toString slot), ("index", toString index), ("length", toString length)]
  | .dynamic site args =>
    record "Dynamic" [("site", site.signature.text), ("args", slotStructure args)]

/-- The structure of a program. -/
def Program.structure (p : Program) : String :=
  let binding (b : Binding) : String :=
    record "Binding" [("kind", b.kind.structure), ("step", b.step.structure)]
  record "Form"
    [("arity", toString p.arity), ("bindings", bracketed (p.bindings.map binding)),
      ("result", optional (p.result.map toString))]

end TypedHandles
