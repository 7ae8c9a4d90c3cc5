import TypedHandles.Member

/-!
A registry of static functions and classes, and the resolution of requests against it. A private
member is found only by the caller that carries the owner's name.
-/
namespace TypedHandles

/-- A registered static function. -/
structure StaticMember where
  signature : Signature
  function : HostFunction
  isPrivate : Bool

/-- Static functions by owner and name, and classes by name, each the one registered last. -/
structure Registry where
  statics : List ((String × String) × StaticMember)
  classes : List (String × ClassDef)

namespace Registry

def empty : Registry := ⟨[], []⟩

/-- Registers a static function in place of an earlier one of the same owner and name. -/
def registerStatic (r : Registry) (owner name : String) (member : StaticMember) :
    Registry :=
  { r with statics := ((owner, name), member) :: r.statics.filter (·.1 != (owner, name)) }

/-- Registers a class in place of an earlier one of the same name. -/
def registerClass (r : Registry) (c : ClassDef) : Registry :=
  { r with classes := (c.name, c) :: r.classes.filter (·.1 != c.name) }

def static? (r : Registry) (owner name : String) : Option StaticMember :=
  r.statics.lookup (owner, name)

def class? (r : Registry) (name : String) : Option ClassDef := r.classes.lookup name

/-- Refuses a private member to any caller but its owner. -/
def checkAccess (isPrivate : Bool) (caller : String) (request : MemberRequest) :
    Except Failure Unit :=
  if isPrivate && caller != request.owner then
    .error (.accessDenied (.privateMember request.name request.owner caller))
  else .ok ()

/-- The class that a request names as owner. -/
def owner (r : Registry) (request : MemberRequest) : Except Failure ClassDef :=
  match r.class? request.owner with
  | some c => .ok c
  | none => .error request.missing

/-- The kind of the field that a request names. -/
def field (c : ClassDef) (request : MemberRequest) : Except Failure Kind :=
  match c.fields.find? (·.1 == request.name) with
  | some (_, kind) => .ok kind
  | none => .error request.missing

/-- Finds the member that a request names, on behalf of a caller. -/
def resolve (r : Registry) (caller : String) (request : MemberRequest) :
    Except Failure FoundMember := do
  match request.kind with
  | .static =>
    match r.static? request.owner request.name with
    | none => throw request.missing
    | some member =>
      checkAccess member.isPrivate caller request
      return ⟨member.signature, .host member.function⟩
  | .virtual =>
    let c ← r.owner request
    match c.findMethod? request.name with
    | none => throw request.missing
    | some method =>
      checkAccess method.isPrivate caller request
      let signature ← method.signature.insertParams 0 [.ofClass c]
      return ⟨signature, .virtual c request.name⟩
  | .getter =>
    let c ← r.owner request
    let kind ← field c request
    let signature ← Signature.make kind [.ofClass c]
    return ⟨signature, .getField c request.name⟩
  | .setter =>
    let c ← r.owner request
    let kind ← field c request
    let signature ← Signature.make .void [.ofClass c, kind]
    return ⟨signature, .setField c request.name⟩
  | .constructor =>
    let c ← r.owner request
    let signature ← Signature.make (.ofClass c) (c.fields.map (·.2))
    return ⟨signature, .construct c⟩

end Registry
end TypedHandles
