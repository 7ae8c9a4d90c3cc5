import TypedHandles.Kind

/-!
The order of the reference types. `Object` is on top; a numeric wrapper lies below `Number`; an
array of references lies below the arrays over the supertypes of its element; a class lies below
its superclass. No type lies below two types that are not related to each other.
-/
namespace TypedHandles
namespace RefType

/-- Whether every value of the first type is a value of the second. -/
def isSubtypeOf (source target : RefType) : Bool :=
  source == target || target == .object ||
    match source with
    | .boxed p => target == .number && p.isNumeric
    | .array (.ref element) =>
      match target with
      | .array (.ref wanted) => element.isSubtypeOf wanted
      | _ => false
    | .cls ⟨_, some parent, _, _, _⟩ => parent.isSubtypeOf target
    | _ => false
termination_by structural source

/-- Whether one of the two types lies below the other. -/
def isRelatedTo (a b : RefType) : Bool := a.isSubtypeOf b || b.isSubtypeOf a

/-- Whether the type is known to have no subtypes but itself. -/
def isFinal : RefType → Bool
  | .string | .boxed _ | .signature => true
  | .array (.ref _) => false
  | .array _ => true
  | .cls c => c.isFinal
  | .object | .number | .throwable | .handle | .callSite => false

/-- Whether the values of the type may be thrown. -/
def isThrowable (t : RefType) : Bool := t.isSubtypeOf .throwable

theorem isSubtypeOf_refl (t : RefType) : t.isSubtypeOf t = true := by
  unfold isSubtypeOf
  simp

theorem isSubtypeOf_object (t : RefType) : t.isSubtypeOf .object = true := by
  unfold isSubtypeOf
  simp

end RefType
end TypedHandles
