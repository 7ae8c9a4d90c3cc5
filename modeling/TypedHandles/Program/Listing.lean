import TypedHandles.Value.Text
import TypedHandles.Text.Lines

/-!
Listings of programs: one line for each binding, between the signature and the result.
-/
namespace TypedHandles

namespace Intrinsic

/-- The name that listings show for a function of the library. -/
def name : Intrinsic → String
  | throwArgument => "throw"
  | arrayItem => "array_get"
  | arrayLength => "array_length"
  | intLess => "int_less_than"
  | intIncrement => "int_increment"
  | lambda name _ _ => name

end Intrinsic

namespace Action

/-- The displayed form of an action. -/
def text : Action → String
  | host f => "static " ++ f.name
  | intrinsic f => "static " ++ f.name
  | virtual owner name => "virtual " ++ owner.name ++ "." ++ name
  | getField owner name => "getfield " ++ owner.name ++ "." ++ name
  | setField owner name => "putfield " ++ owner.name ++ "." ++ name
  | construct cls => "new " ++ cls.name

end Action

namespace Program

/-- The name of a slot: arguments are counted with `a`, the slots of bindings with `t`. -/
def slotName (arity : Nat) (slot : Slot) : String :=
  if slot < arity then s!"a{slot}" else s!"t{slot}"

/-- What a step does, over the slots of a program with `arity` arguments. -/
def describe (arity : Nat) (step : Step) : String :=
  let slots (args : List Slot) : String := ", ".intercalate (args.map (slotName arity))
  match step with
  | .const v => "const " ++ v.text
  | .convert slot source target => s!"convert {slotName arity slot} {source} -> {target}"
  | .leaf action args => s!"leaf {action.text}({slots args})"
  | .call target args => s!"call {target.signature}({slots args})"
  | .branch _ _ _ args => s!"guard({slots args})"
  | .catching _ exception _ args => s!"catch {exception}({slots args})"
  | .finishing _ _ args => s!"finally({slots args})"
  | .loop plan args => s!"loop[{plan.clauses.length} clauses]({slots args})"
  | .collect element args => s!"collect {element}[]({slots args})"
  | .spread slot index length => s!"spread {slotName arity slot}[{index}/{length}]"
  | .dynamic site args => s!"dynamic {site.signature}({slots args})"

/-- The lines of a listing below the signature. -/
def listing (p : Program) : List String :=
  let line (index : Nat) (b : Binding) : String :=
    s!"{slotName p.arity (p.arity + index)}: {b.kind} = {describe p.arity b.step}"
  p.bindings.mapIdx line ++
    [match p.result with
      | some slot => "return " ++ slotName p.arity slot
      | none => "return"]

end Program

/-- The listing of a handle: its signature, then its program indented by two blanks. -/
def Handle.disassemble (h : Handle) : String :=
  h.signature.text ++ "\n" ++ String.join (h.program.listing.map fun line => "  " ++ line ++ "\n")

/-- The lines of a listing below its first, without the blanks before them. -/
def Handle.listingLines (h : Handle) : List String :=
  ((Text.lines h.disassemble).drop 1).map Text.stripBlanks

/-- A handle in few words. -/
def Handle.summary (h : Handle) : String :=
  "FunctionHandle(" ++ h.signature.text ++ (if h.variableArity then ", varargs)" else ")")

end TypedHandles
