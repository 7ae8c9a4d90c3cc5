import TypedHandles.Failure.Cause

/-!
Every failure that the library reports, with its message.
-/
namespace TypedHandles

/-- A reported failure. -/
inductive Failure where
  /-- A signature was expected and another one was found. -/
  | signatureMismatch (expected actual : Signature)
  /-- The handles given to an adapter do not fit together. -/
  | adapterMismatch (fault : AdapterFault) (expected actual : Signature)
  | wrongArgumentCount (expected got : Nat)
  /-- A value of one type does not belong to another. -/
  | classCast (source target : String)
  | tooManyParameters (count limit : Nat)
  | voidParameter (index : Nat)
  | illegalArgument (cause : Misuse)
  | illegalRetarget (cause : RetargetFault)
  | unlinkedCallSite (site : Signature)
  /-- The bootstrap of a call point failed for the wrapped reason. -/
  | bootstrapLinkage (point : String) (cause : Failure)
  /-- The bootstrap of a call point returned a value of a type that is no call site. -/
  | bootstrapProtocol (point : String) (returned : String)
  | lambdaShapeMismatch (fault : LambdaFault)
  | accessDenied (fault : AccessFault)
  | noSuchMember (owner name : String)
  /-- A throwable was thrown and not caught. -/
  | thrown (throwable : Throwable)
  /-- The host gave up; nothing may catch, wrap or follow this. -/
  | fatal (text : String)

namespace Failure

/-- The message of a failure. -/
def message : Failure → String
  | .signatureMismatch expected actual =>
    s!"signature mismatch: expected {expected}, found {actual}"
  | .adapterMismatch fault expected actual =>
    s!"{fault.adapter}: {fault.detail} (target {expected}, adapter {actual})"
  | .wrongArgumentCount expected got => s!"wrong number of arguments: want={expected}, got={got}"
  | .classCast source target => s!"cannot cast {source} to {target}"
  | .tooManyParameters count limit =>
    s!"too many parameters: {count} exceeds the limit of {limit}"
  | .voidParameter index => s!"parameter {index} has kind void"
  | .illegalArgument cause => s!"illegal argument: {cause.text}"
  | .illegalRetarget cause => s!"illegal retarget: {cause.text}"
  | .unlinkedCallSite site => s!"call site {site} is not linked"
  | .bootstrapLinkage point cause => "bootstrap for `" ++ point ++ "` failed: " ++ cause.message
  | .bootstrapProtocol point returned =>
    "bootstrap for `" ++ point ++ "` violated the protocol: expected a call site, got " ++ returned
  | .lambdaShapeMismatch fault =>
    s!"lambda shape mismatch at {fault.slot.text}: {fault.detail}"
  | .accessDenied fault => s!"access denied: {fault.text}"
  | .noSuchMember owner name => s!"no such member: {owner}.{name}"
  | .thrown throwable => throwable.text
  | .fatal text => s!"fatal: {text}"

/-- Whether a failure ends the whole run. -/
def isFatal : Failure → Bool
  | .fatal _ => true
  | _ => false

/-- The throwable that a failure carries. -/
def thrown? : Failure → Option Throwable
  | .thrown t => some t
  | _ => none

@[simp] theorem isFatal_iff {f : Failure} : f.isFatal = true ↔ ∃ text, f = .fatal text := by
  cases f <;> simp [isFatal]

end Failure
end TypedHandles
