import TypedHandles.Value

/-!
Symbolic requests for members of a class or of an owner of static functions.
-/
namespace TypedHandles

/-- What sort of member a request asks for. -/
inductive MemberKind where
  | static | virtual | getter | setter | constructor
  deriving DecidableEq, Repr

/-- The name of a sort of member. -/
def MemberKind.text : MemberKind → String
  | .static => "Static"
  | .virtual => "Virtual"
  | .getter => "Getter"
  | .setter => "Setter"
  | .constructor => "Constructor"

/-- The sort of member that a keyword names. -/
def MemberKind.ofName? (name : String) : Option MemberKind :=
  [static, virtual, getter, setter, constructor].find? fun kind =>
    kind.text == name || kind.text.toLower == name

/-- A member of an owner, by name. When the caller knows the signature of the handle it expects,
receiver included, the request says so. -/
structure MemberRequest where
  owner : String
  name : String
  kind : MemberKind
  signature : Option Signature

/-- The displayed form of a request. -/
def MemberRequest.text (r : MemberRequest) : String :=
  let expected := match r.signature with | some s => " " ++ s.text | none => ""
  r.kind.text ++ " " ++ r.owner ++ "." ++ r.name ++ expected

/-- The failure of a request that nothing answers. -/
def MemberRequest.missing (r : MemberRequest) : Failure := .noSuchMember r.owner r.name

/-- A found member: the signature of its handle, receiver first, and what the handle does. -/
structure FoundMember where
  signature : Signature
  action : Action

/-- A member together with the shape that the caller wants it to have. Signatures leave the receiver
out. -/
inductive MemberQuery where
  | static (owner name : String) (signature : Signature)
  | virtual (owner name : String) (signature : Signature)
  | getter (owner name : String) (kind : Kind)
  | setter (owner name : String) (kind : Kind)
  | constructor (owner : String) (params : List Kind)

namespace MemberQuery

/-- The name under which constructors are requested. -/
def constructorName : String := "<init>"

/-- The request that a query starts from. -/
def request : MemberQuery → MemberRequest
  | static owner name signature => ⟨owner, name, .static, some signature⟩
  | virtual owner name _ => ⟨owner, name, .virtual, none⟩
  | getter owner name _ => ⟨owner, name, .getter, none⟩
  | setter owner name _ => ⟨owner, name, .setter, none⟩
  | constructor owner _ => ⟨owner, constructorName, .constructor, none⟩

/-- Whether a found handle has the wanted shape. -/
def accepts (q : MemberQuery) (found : Signature) : Bool :=
  match q with
  | static .. => true
  | virtual _ _ signature =>
    found.paramsFrom 1 == signature.params && found.ret == signature.ret
  | getter _ _ kind => found.ret == kind
  | setter _ _ kind => found.params[1]? == some kind
  | constructor _ params => found.params == params

/-- The failure of a query whose member has another shape. -/
def mismatch : MemberQuery → Failure
  | static owner name signature => .noSuchMember owner (name ++ signature.descriptor)
  | virtual owner name signature => .noSuchMember owner (name ++ signature.descriptor)
  | getter owner name kind => .noSuchMember owner (name ++ ": " ++ kind.text)
  | setter owner name kind => .noSuchMember owner (name ++ ": " ++ kind.text)
  | constructor owner _ => .noSuchMember owner constructorName

end MemberQuery
end TypedHandles
