import TypedHandles.Signature
import TypedHandles.Kind.Conversion

/-!
Which signatures a handle can be adapted to. Parameters convert against the direction of the
adaptation, since the new caller supplies them; the result converts along it.
-/
namespace TypedHandles
namespace Signature

/-- Whether a handle of this signature converts loosely to another one. -/
def isConvertibleTo (s target : Signature) : Bool :=
  s == target ||
    s.arity == target.arity &&
      (s.params.zip target.params).all (fun (own, wanted) => wanted.isConvertibleTo own) &&
        s.ret.isConvertibleTo target.ret

/-- Whether a handle of this signature may be read at another one without conversions. -/
def isViewableAs (s target : Signature) (strict : Bool) : Bool :=
  s.arity == target.arity &&
    (s.params.zip target.params).all (fun (own, wanted) => wanted.isViewableAs own strict) &&
      s.ret.isViewableAs target.ret strict

end Signature
end TypedHandles
