import TypedHandles.Failure

/-!
Stable codes of the failures. A code is never renumbered: codes from `E2000` are found while a
handle is built, from `E2100` while one is invoked, and from `E2200` while a call point is linked.
-/
namespace TypedHandles

/-- A stable code with its title. -/
structure FailureCode where
  code : String
  title : String
  deriving DecidableEq, Repr

namespace FailureCode

def signatureMismatch : FailureCode := ⟨"E2000", "SIGNATURE MISMATCH"⟩
def adapterMismatch : FailureCode := ⟨"E2001", "COMBINATOR TYPE MISMATCH"⟩
def tooManyParameters : FailureCode := ⟨"E2002", "TOO MANY PARAMETERS"⟩
def voidParameter : FailureCode := ⟨"E2003", "VOID PARAMETER"⟩
def illegalArgument : FailureCode := ⟨"E2004", "ILLEGAL ARGUMENT"⟩
def lambdaShapeMismatch : FailureCode := ⟨"E2005", "LAMBDA SHAPE MISMATCH"⟩
def wrongArgumentCount : FailureCode := ⟨"E2100", "WRONG NUMBER OF ARGUMENTS"⟩
def classCast : FailureCode := ⟨"E2101", "CLASS CAST"⟩
def thrown : FailureCode := ⟨"E2102", "UNCAUGHT THROWABLE"⟩
def fatal : FailureCode := ⟨"E2103", "FATAL RUNTIME ERROR"⟩
def illegalRetarget : FailureCode := ⟨"E2200", "ILLEGAL RETARGET"⟩
def unlinkedCallSite : FailureCode := ⟨"E2201", "UNLINKED CALL SITE"⟩
def bootstrapLinkage : FailureCode := ⟨"E2202", "BOOTSTRAP LINKAGE"⟩
def bootstrapProtocol : FailureCode := ⟨"E2203", "BOOTSTRAP PROTOCOL"⟩
def accessDenied : FailureCode := ⟨"E2204", "ACCESS DENIED"⟩
def noSuchMember : FailureCode := ⟨"E2205", "NO SUCH MEMBER"⟩

/-- All codes in ascending order. -/
def registry : List FailureCode :=
  [signatureMismatch, adapterMismatch, tooManyParameters, voidParameter, illegalArgument,
    lambdaShapeMismatch, wrongArgumentCount, classCast, thrown, fatal, illegalRetarget,
    unlinkedCallSite, bootstrapLinkage, bootstrapProtocol, accessDenied, noSuchMember]

/-- The entry of a code. -/
def find? (code : String) : Option FailureCode := registry.find? (·.code == code)

/-- The registry as JSON text, an object for each code, indented by two blanks. -/
def registryJson : String :=
  let entry (c : FailureCode) : String :=
    "  \x7b\n    \"code\": \"" ++ c.code ++ "\",\n    \"title\": \"" ++ c.title ++ "\"\n  \x7d"
  "[\n" ++ ",\n".intercalate (registry.map entry) ++ "\n]"

/-- No two entries share a code. -/
theorem registry_codes_nodup : (registry.map code).Nodup := by decide

end FailureCode

/-- The code of a failure. -/
def Failure.code : Failure → FailureCode
  | .signatureMismatch .. => .signatureMismatch
  | .adapterMismatch .. => .adapterMismatch
  | .wrongArgumentCount .. => .wrongArgumentCount
  | .classCast .. => .classCast
  | .tooManyParameters .. => .tooManyParameters
  | .voidParameter _ => .voidParameter
  | .illegalArgument _ => .illegalArgument
  | .illegalRetarget _ => .illegalRetarget
  | .unlinkedCallSite _ => .unlinkedCallSite
  | .bootstrapLinkage .. => .bootstrapLinkage
  | .bootstrapProtocol .. => .bootstrapProtocol
  | .lambdaShapeMismatch _ => .lambdaShapeMismatch
  | .accessDenied _ => .accessDenied
  | .noSuchMember .. => .noSuchMember
  | .thrown _ => .thrown
  | .fatal _ => .fatal

theorem Failure.code_mem_registry (f : Failure) : f.code ∈ FailureCode.registry := by
  cases f <;> simp [code, FailureCode.registry]

end TypedHandles
