import TypedHandles.Binary

/-!
The shortest decimal that reads back as a given binary number.

All reals between the half-way points to the two neighbouring patterns round to a pattern; the
half-way points themselves do when its significand is even. Of the grids of multiples of a power of
ten, the coarsest one with a point in that interval is taken, on it the point nearest to the number,
and of two equally near points the greater. The digits are written without an exponent.
-/
namespace TypedHandles.Decimal

/-- A positive number `significand · 2 ^ scale` between the two ends of the interval of reals that
round to it. The ends are counted in quarters of `2 ^ scale`. -/
structure Rounding where
  significand : Nat
  scale : Int
  low : Nat
  high : Nat
  closed : Bool

/-- The interval of a positive number of a format. Below a power of two the patterns lie twice as
dense, so the lower end is a quarter away there and half a unit elsewhere. -/
def Rounding.of (f : BinaryFormat) (significand : Nat) (scale : Int) : Rounding where
  significand := significand
  scale := scale
  low := 4 * significand - if significand = 1 <<< f.fractionBits then 1 else 2
  high := 4 * significand + 2
  closed := significand % 2 = 0

namespace Rounding
variable (r : Rounding)

/-- The number of quarters per multiple of `10 ^ k`, as a fraction of whole numbers. -/
def grid (k : Int) : Nat × Nat :=
  (Nat.pow 10 k.toNat <<< (2 - r.scale).toNat, Nat.pow 10 (-k).toNat <<< (r.scale - 2).toNat)

/-- Whether the multiple `n · 10 ^ k` lies in the interval. -/
def contains (n : Nat) (k : Int) : Bool :=
  let (step, parts) := r.grid k
  if r.closed then r.low * parts ≤ n * step && n * step ≤ r.high * parts
  else r.low * parts < n * step && n * step < r.high * parts

/-- The multiple of `10 ^ k` that the grid offers, if it has a point in the interval: the nearer of
the number's two neighbours, and the upper one when they are equally near. -/
def point? (k : Int) : Option Nat :=
  let (step, parts) := r.grid k
  let quarters := 4 * r.significand * parts
  let below := quarters / step
  let above := below + 1
  match r.contains below k, r.contains above k with
  | true, true => some (if 2 * (quarters % step) < step then below else above)
  | true, false => some below
  | false, true => some above
  | false, false => none

/-- The coarsest grid with a point, among `count` grids downwards from `10 ^ k`. -/
def search : Nat → Int → Option (Nat × Int)
  | 0, _ => none
  | count + 1, k =>
    match r.point? k with
    | some n => some (n, k)
    | none => search count (k - 1)

/-- An exponent of ten above the number. -/
def start : Int := (r.significand.log2 + r.scale) * 30103 / 100000 + 2

/-- The digits and the exponent of the shortest decimal. Seventeen digits always reach a point; the
search starts at most three grids above the first digit. -/
def shortest : Nat × Int := (r.search 24 r.start).getD (0, 0)

end Rounding

/-- The decimal `n · 10 ^ k` without an exponent. -/
def positional (n : Nat) (k : Int) : String :=
  let digits := Nat.toDigits 10 n
  if k ≥ 0 then String.ofList (digits ++ List.replicate k.toNat '0')
  else
    let places := (-k).toNat
    let padded := List.replicate (places + 1 - digits.length) '0' ++ digits
    let whole := padded.length - places
    String.ofList (padded.take whole ++ '.' :: padded.drop whole)

/-- The text of a pattern: a whole number has no point, and zero keeps its sign. -/
def text (f : BinaryFormat) (bits : Nat) : String :=
  let signed (negative : Bool) (s : String) : String := if negative then "-" ++ s else s
  match f.decode bits with
  | .nan => "NaN"
  | .infinite negative => signed negative "inf"
  | .finite negative significand scale =>
    if significand = 0 then signed negative "0"
    else
      let (n, k) := (Rounding.of f significand scale).shortest
      signed negative (positional n k)

end TypedHandles.Decimal
