/-!
Binary floating-point numbers as bit patterns, with exact arithmetic on what the patterns stand for.

A finite pattern is a sign and a number `m · 2 ^ q`. Every operation computes the exact result in
whole numbers and rounds once, to the nearest pattern and to the even one of two.
-/
namespace TypedHandles

/-- The layout of a binary format below its sign bit: an exponent field over a fraction field. -/
structure BinaryFormat where
  exponentBits : Nat
  fractionBits : Nat

/-- What a pattern stands for; a finite number is `± significand · 2 ^ scale`. -/
inductive BinaryNumber where
  | nan
  | infinite (negative : Bool)
  | finite (negative : Bool) (significand : Nat) (scale : Int)

namespace BinaryFormat

/-- The format of 32 bits. -/
def single : BinaryFormat := ⟨8, 23⟩

/-- The format of 64 bits. -/
def double : BinaryFormat := ⟨11, 52⟩

variable (f : BinaryFormat)

/-- The sign bit of a negative pattern. -/
def signBit : Nat := 1 <<< (f.exponentBits + f.fractionBits)

/-- The pattern of positive infinity; patterns above it, up to the sign bit, are no numbers. -/
def infinity : Nat := (1 <<< f.exponentBits - 1) <<< f.fractionBits

/-- The scale of the least positive number. -/
def leastScale : Int := 3 - (1 <<< (f.exponentBits - 1) : Nat) - (f.fractionBits + 1)

/-- The bit that tells a quiet pattern without a number from a signalling one. -/
def quietBit : Nat := 1 <<< (f.fractionBits - 1)

/-- What an operation without a defined result yields: the quiet pattern with the sign bit set. -/
def undefinedResult : Nat := f.signBit + f.infinity + f.quietBit

def isNegative (bits : Nat) : Bool := bits ≥ f.signBit

/-- What a pattern stands for. -/
def decode (bits : Nat) : BinaryNumber :=
  let negative := f.isNegative bits
  let magnitude := bits % f.signBit
  let exponent := magnitude >>> f.fractionBits
  let fraction := magnitude % 1 <<< f.fractionBits
  if magnitude > f.infinity then .nan
  else if magnitude = f.infinity then .infinite negative
  else if exponent = 0 then .finite negative fraction f.leastScale
  else .finite negative (1 <<< f.fractionBits + fraction) (f.leastScale + (exponent - 1 : Nat))

/-- Whether a pattern stands for no number. -/
def isNan (bits : Nat) : Bool := bits % f.signBit > f.infinity

/-- The pattern nearest to `± significand · 2 ^ scale`. A significand of zero keeps its sign. -/
def round (negative : Bool) (significand : Nat) (scale : Int) : Nat :=
  let sign := if negative then f.signBit else 0
  if significand = 0 then sign
  else
    let unit := max f.leastScale (significand.log2 + scale - f.fractionBits)
    let rounded :=
      if unit ≤ scale then significand <<< (scale - unit).toNat
      else
        let step := 1 <<< (unit - scale).toNat
        let quotient := significand / step
        let rest := 2 * (significand % step)
        if rest > step ∨ rest = step ∧ quotient % 2 = 1 then quotient + 1 else quotient
    sign + min f.infinity ((unit - f.leastScale).toNat <<< f.fractionBits + rounded)

/-- The pattern nearest to a whole number. -/
def ofInt (n : Int) : Nat := f.round (n < 0) n.natAbs 0

/-- Quiets a pattern without a number. -/
def quiet (bits : Nat) : Nat :=
  if bits / f.quietBit % 2 = 1 then bits else bits + f.quietBit

/-- Equality of numbers: zeros of both signs are equal, and nothing equals a pattern without one. -/
def equal (a b : Nat) : Bool :=
  match f.decode a, f.decode b with
  | .nan, _ | _, .nan => false
  | .finite _ 0 _, .finite _ 0 _ => true
  | _, _ => a == b

/-- The nearest sum. A pattern without a number is passed on, the first of two. -/
def add (a b : Nat) : Nat :=
  match f.decode a, f.decode b with
  | .nan, _ => f.quiet a
  | _, .nan => f.quiet b
  | .infinite s, .infinite t => if s == t then a else f.undefinedResult
  | .infinite _, _ => a
  | _, .infinite _ => b
  | .finite s m q, .finite t n r =>
    let scale := min q r
    let signed (negative : Bool) (significand : Nat) (e : Int) : Int :=
      let size : Int := significand <<< (e - scale).toNat
      if negative then -size else size
    let total := signed s m q + signed t n r
    if total = 0 then f.round (s && t) 0 scale else f.round (total < 0) total.natAbs scale

/-- The nearest product. A pattern without a number is passed on, the first of two. -/
def mul (a b : Nat) : Nat :=
  let signed (negative : Bool) : Nat := (if negative then f.signBit else 0) + f.infinity
  match f.decode a, f.decode b with
  | .nan, _ => f.quiet a
  | _, .nan => f.quiet b
  | .infinite s, .infinite t => signed (s != t)
  | .infinite s, .finite t m _ | .finite t m _, .infinite s =>
    if m = 0 then f.undefinedResult else signed (s != t)
  | .finite s m q, .finite t n r => f.round (s != t) (m * n) (q + r)

/-- The pattern of a wider format for the same number; one without a number keeps its sign and the
leading bits of its fraction, quieted. -/
def widen (wide : BinaryFormat) (bits : Nat) : Nat :=
  let sign := if f.isNegative bits then wide.signBit else 0
  match f.decode bits with
  | .nan =>
    let fraction := (bits % 1 <<< f.fractionBits) <<< (wide.fractionBits - f.fractionBits)
    wide.quiet (sign + wide.infinity + fraction)
  | .infinite _ => sign + wide.infinity
  | .finite negative m q => wide.round negative m q

end BinaryFormat
end TypedHandles
