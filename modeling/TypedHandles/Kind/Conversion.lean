import TypedHandles.Kind.Lattice

/-!
Which kinds convert to which, decided before any value is known.

A loose conversion changes the representation at most once (it boxes or it unboxes) and may widen
on the primitive side:

| from \ to | primitive          | reference                        |
|-----------|--------------------|----------------------------------|
| primitive | widen              | widen, then box into a supertype |
| reference | unbox, then widen  | any, unless final and unrelated  |

`void` converts to everything, since a missing result is replaced by a zero, and everything converts
to `void`, since a result may be thrown away.
-/
namespace TypedHandles

/-- The primitive that a value of kind `p` has when it is boxed into `target`: its own kind when
that wrapper lies below the target, else the kind of the target's wrapper when `p` widens to it. -/
def Prim.boxTarget? (p : Prim) (target : RefType) : Option Prim :=
  if (RefType.boxed p).isSubtypeOf target then some p
  else
    match target with
    | .boxed q => if p.widensTo q then some q else none
    | _ => none

/-- Whether a reference of this static type may be unboxed into `p`. A wrapper settles it at once;
for `Object` and `Number` it is left to the value. -/
def RefType.canUnboxTo : RefType → Prim → Bool
  | .boxed q, p => q.widensTo p
  | .object, _ => true
  | .number, p => p.isNumeric
  | _, _ => false

namespace Kind

/-- Whether values of the first kind convert loosely to the second. -/
def isConvertibleTo (source target : Kind) : Bool :=
  source == target ||
    match source, target with
    | .void, _ | _, .void => true
    | .prim p, .prim q => p.widensTo q
    | .prim p, .ref t => (p.boxTarget? t).isSome
    | .ref s, .prim q => s.canUnboxTo q
    | .ref s, .ref t => s.isRelatedTo t || !(s.isFinal && t.isFinal)

/-- Whether values of the first kind may be read as the second without a change of representation.
A strict view keeps primitives as they are and moves references up only; a lenient one also widens
primitives and casts references wherever a loose conversion would. -/
def isViewableAs (source target : Kind) (strict : Bool) : Bool :=
  source == target ||
    match source, target with
    | .prim p, .prim q => !strict && p.widensTo q
    | .ref s, .ref t => if strict then s.isSubtypeOf t else source.isConvertibleTo target
    | _, _ => false

theorem isConvertibleTo_refl (k : Kind) : k.isConvertibleTo k = true := by
  simp [isConvertibleTo]

theorem isViewableAs_refl (k : Kind) (strict : Bool) : k.isViewableAs k strict = true := by
  simp [isViewableAs]

end Kind
end TypedHandles
