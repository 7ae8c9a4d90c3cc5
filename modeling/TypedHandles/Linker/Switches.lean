import TypedHandles.Text.Json
import TypedHandles.Failure

/-!
The switches of a linker, and their JSON form: an object with a key for each switch, of which any
may be missing, or an array with the switches in order, of which the last may be missing.
-/
namespace TypedHandles

structure LinkerSwitches where
  /-- Takes a handle for a constant site when a bootstrap returns one. -/
  allowHandleResults : Bool
  /-- Reports links at a higher level of the log. -/
  traceLinkage : Bool
  deriving DecidableEq, Repr

namespace LinkerSwitches

/-- All switches are off. -/
def default : LinkerSwitches := ⟨false, false⟩

/-- The keyword of a truth value. -/
def boolText (b : Bool) : String := if b then "true" else "false"

/-- The JSON form, indented by two blanks. -/
def toJson (c : LinkerSwitches) : String :=
  "\x7b\n  \"allow_handle_results\": " ++ boolText c.allowHandleResults ++
    ",\n  \"trace_linkage\": " ++ boolText c.traceLinkage ++ "\n\x7d"

/-- The displayed form. -/
def text (c : LinkerSwitches) : String :=
  "LinkerConfig \x7b allow_handle_results: " ++ boolText c.allowHandleResults ++
    ", trace_linkage: " ++ boolText c.traceLinkage ++ " \x7d"

/-- Reads the switches in order from the items of an array. -/
def ofItems? : List Json → Option LinkerSwitches
  | [] => some default
  | [.bool allow] => some ⟨allow, false⟩
  | [.bool allow, .bool trace] => some ⟨allow, trace⟩
  | _ => none

/-- Reads the members of an object. Keys that name no switch are passed over, but have to be texts;
a switch must be given once at most, and by a truth value. -/
def ofMembers? (allow trace : Option Bool) :
    List (Option String × Json) → Option LinkerSwitches
  | [] => some ⟨allow.getD false, trace.getD false⟩
  | (none, _) :: _ => none
  | (some key, value) :: rest =>
    if key = "allow_handle_results" then
      match allow, value with
      | none, .bool b => ofMembers? (some b) trace rest
      | _, _ => none
    else if key = "trace_linkage" then
      match trace, value with
      | none, .bool b => ofMembers? allow (some b) rest
      | _, _ => none
    else ofMembers? allow trace rest

/-- Reads the JSON form. -/
def ofJson? (text : String) : Option LinkerSwitches :=
  match Json.read? text with
  | some (.array items) => ofItems? items
  | some (.object members) => ofMembers? none none members
  | _ => none

/-- Reads the JSON form, or reports that it is none. -/
def ofJson (text : String) : Except Failure LinkerSwitches :=
  match ofJson? text with
  | some c => .ok c
  | none => .error (.illegalArgument .linkerConfig)

end LinkerSwitches
end TypedHandles
