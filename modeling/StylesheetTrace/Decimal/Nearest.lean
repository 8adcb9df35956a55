import StylesheetTrace.Decimal.Ratio

/-!
# The real number nearest to a decimal one

A decimal number is a mantissa times a power of ten.  It is read as the real number of double
precision that is nearest to it, of two equally near ones as the one whose last bit is zero; one
that is too great becomes infinite, one that is too small becomes zero.
-/

namespace StylesheetTrace.Decimal

namespace Ratio

/-- The quotient divided by a power of two. -/
def dividedByTwo (r : Ratio) (exponent : Int) : Ratio :=
  match exponent with
  | .ofNat e => ⟨r.num, r.den * Nat.pow 2 e⟩
  | .negSucc e => ⟨r.num * Nat.pow 2 (e + 1), r.den⟩

/-- The power of two that is the greatest not above the number. -/
def binaryMagnitude (r : Ratio) : Int :=
  let guess : Int := (Nat.log2 r.num : Int) - (Nat.log2 r.den : Int)
  let scaled := r.dividedByTwo guess
  if scaled.num < scaled.den then guess - 1 else guess

/-- The whole number nearest to the quotient, of two equally near ones the even one. -/
def rounded (r : Ratio) : Nat :=
  let below := r.num / r.den
  let rest := 2 * (r.num - below * r.den)
  if rest < r.den ∨ (rest = r.den ∧ below % 2 = 0) then below else below + 1

end Ratio

/-- The bits of what is infinite. -/
def infinityBits : Nat := 0x7ff0000000000000

/-- The real number nearest to a quotient.  Its mantissa has 53 bits, fewer at the least exponent;
a mantissa that is rounded up to 54 bits leads to the next exponent. -/
def nearestTo (r : Ratio) : Float :=
  let exponent := max (r.binaryMagnitude - 52) (-1074)
  let mantissa := (r.dividedByTwo exponent).rounded
  let bits := (exponent + 1074).toNat * 0x10000000000000 + mantissa
  Float.ofBits (UInt64.ofNat (min bits infinityBits))

/-- The greatest power of ten that is worth computing. -/
def maxExponent : Int := 400

/-- The real number nearest to an unsigned decimal one. -/
def nearestMagnitude (mantissa : Nat) (exponent : Int) : Float :=
  if mantissa = 0 ∨ exponent + (toString mantissa).length < -maxExponent then 0.0
  else if exponent > maxExponent then Float.ofBits (UInt64.ofNat infinityBits)
  else nearestTo ((⟨mantissa, 1⟩ : Ratio).dividedByTen (-exponent))

/-- The real number nearest to a decimal one. -/
def nearest (mantissa exponent : Int) : Float :=
  let magnitude := nearestMagnitude mantissa.natAbs exponent
  if mantissa < 0 then -magnitude else magnitude

/-- The whole number that a real number is, if it is one. -/
def whole? (x : Float) : Option Int :=
  let field : Nat := (x.toBits >>> 52 &&& 0x7ff).toNat
  let fraction : Nat := (x.toBits &&& 0xfffffffffffff).toNat
  let magnitude : Option Nat :=
    if field = 0x7ff then none
    else if field < 1023 then (if field = 0 ∧ fraction = 0 then some 0 else none)
    else
      let mantissa := 0x10000000000000 + fraction
      if field ≥ 1075 then some (mantissa * Nat.pow 2 (field - 1075))
      else
        let unit := Nat.pow 2 (1075 - field)
        if mantissa % unit = 0 then some (mantissa / unit) else none
  magnitude.map fun n => if x.toBits ≥ 0x8000000000000000 then -(n : Int) else n

end StylesheetTrace.Decimal
