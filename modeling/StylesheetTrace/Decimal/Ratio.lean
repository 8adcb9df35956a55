/-!
# Quotients

A positive number is kept as a quotient of two whole numbers, so that powers of two and of ten can
be compared without rounding.
-/

namespace StylesheetTrace.Decimal

/-- A positive number as a quotient. -/
structure Ratio where
  /-- The numerator. -/
  num : Nat
  /-- The denominator. -/
  den : Nat
  deriving Repr, DecidableEq

namespace Ratio

/-- The quotient times a power of two. -/
def ofBinary (mantissa : Nat) (exponent : Int) : Ratio :=
  match exponent with
  | .ofNat e => ⟨mantissa * Nat.pow 2 e, 1⟩
  | .negSucc e => ⟨mantissa, Nat.pow 2 (e + 1)⟩

/-- The quotient divided by a power of ten. -/
def dividedByTen (r : Ratio) (exponent : Int) : Ratio :=
  match exponent with
  | .ofNat e => ⟨r.num, r.den * Nat.pow 10 e⟩
  | .negSucc e => ⟨r.num * Nat.pow 10 (e + 1), r.den⟩

/-- How many zeros follow the point of a number below one, within a bound. -/
def leadingZeros : Nat → Ratio → Nat
  | 0, _ => 0
  | n + 1, r => if r.num * 10 ≥ r.den then 0 else leadingZeros n ⟨r.num * 10, r.den⟩ + 1

/-- The power of ten with which the number is a fraction whose first digit is not zero. -/
def magnitude (r : Ratio) : Int :=
  if r.num ≥ r.den then ((toString (r.num / r.den)).length : Int)
  else -(leadingZeros 400 r : Int)

end Ratio

end StylesheetTrace.Decimal
