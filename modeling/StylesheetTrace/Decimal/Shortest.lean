import StylesheetTrace.Decimal.Ratio

/-!
# The shortest decimal form of a real number

A real number of double precision is written with the fewest digits that read back as the same
number; of several such rows of digits the nearest one is taken.  On the grid of decimals with a
given number of digits only the two neighbours of the number have to be tried.
-/

namespace StylesheetTrace.Decimal

/-- The numbers that are read as one real number, all in multiples of one unit. -/
structure Around where
  /-- The lower end of the interval. -/
  low : Nat
  /-- The real number itself. -/
  value : Nat
  /-- The upper end of the interval. -/
  high : Nat
  /-- The power of two that is the unit. -/
  exponent : Int
  /-- The ends are read as the number too. -/
  closed : Bool
  deriving Repr, DecidableEq

namespace Around

/-- The interval of a mantissa and a binary exponent: half a unit to each side, and below a power of
two only a quarter. -/
def ofBinary (mantissa : Nat) (exponent : Int) (narrow : Bool) : Around :=
  { low := 4 * mantissa - (if narrow then 1 else 2)
    value := 4 * mantissa
    high := 4 * mantissa + 2
    exponent := exponent - 2
    closed := mantissa % 2 == 0 }

/-- The whole number of units of a power of ten lies in the interval. -/
def holds (a : Around) (n : Nat) (power : Int) : Bool :=
  let low := (Ratio.ofBinary a.low a.exponent).dividedByTen power
  let high := (Ratio.ofBinary a.high a.exponent).dividedByTen power
  if a.closed then decide (low.num ≤ n * low.den ∧ n * high.den ≤ high.num)
  else decide (low.num < n * low.den ∧ n * high.den < high.num)

/-- The decimal with a given number of digits that is read back as the number, if there is one, as a
whole number of units of a power of ten. -/
def onGrid? (a : Around) (digits : Nat) : Option (Nat × Int) :=
  let value := Ratio.ofBinary a.value a.exponent
  let power := value.magnitude - digits
  let r := value.dividedByTen power
  let below := r.num / r.den
  let rest := 2 * (r.num - below * r.den)
  let nearer := if rest < r.den ∨ (rest = r.den ∧ below % 2 = 0) then below else below + 1
  let other := if nearer = below then below + 1 else below
  ([nearer, other].find? fun n => a.holds n power).map fun n => (n, power)

/-- The shortest decimal that is read back as the number; seventeen digits always suffice. -/
def shortest (a : Around) : Nat × Int :=
  ((List.range 17).findSome? fun n => a.onGrid? (n + 1)).getD (a.value, a.exponent)

end Around

/-- The number without zeros at its end, and the power of ten that they stand for. -/
def dropZeros : Nat → Nat → Int → Nat × Int
  | 0, m, e => (m, e)
  | n + 1, m, e => if m % 10 = 0 ∧ m ≠ 0 then dropZeros n (m / 10) (e + 1) else (m, e)

/-- The digits of a finite number that is not zero, and the power of ten of the place in front of
them. -/
def shortestDigits (x : Float) : List Char × Int :=
  let field : Nat := (x.toBits >>> 52 &&& 0x7ff).toNat
  let fraction : Nat := (x.toBits &&& 0xfffffffffffff).toNat
  let around :=
    if field = 0 then Around.ofBinary fraction (-1074) false
    else
      Around.ofBinary (0x10000000000000 + fraction) ((field : Int) - 1075)
        (fraction == 0 && decide (field > 1))
  let found := around.shortest
  let (m, e) := dropZeros 400 found.1 found.2
  let ds := (toString m).toList
  (ds, e + ds.length)

/-- Digits with a point after the first `place` of them. -/
def positional (ds : List Char) (place : Int) : List Char :=
  match place with
  | .ofNat n =>
    if n = 0 then '0' :: '.' :: ds
    else if n < ds.length then ds.take n ++ '.' :: ds.drop n
    else ds ++ List.replicate (n - ds.length) '0' ++ ['.', '0']
  | .negSucc n => '0' :: '.' :: List.replicate (n + 1) '0' ++ ds

/-- An exponent with its sign and two digits at least. -/
def exponentText (e : Int) : List Char :=
  let ds := (toString e.natAbs).toList
  'e' :: (if e < 0 then '-' else '+') :: (if ds.length < 2 then '0' :: ds else ds)

/-- Digits with a point after the first of them and an exponent. -/
def scientific (ds : List Char) (place : Int) : List Char :=
  match ds with
  | [] => []
  | [d] => d :: exponentText (place - 1)
  | d :: rest => d :: '.' :: rest ++ exponentText (place - 1)

/-- The text of a number that is not negative: with an exponent from ten to the sixteenth on and
below a ten-thousandth. -/
def unsignedText (x : Float) : List Char :=
  if x.isInf then "inf".toList
  else if x == 0.0 then "0.0".toList
  else
    let (ds, place) := shortestDigits x
    if -4 < place ∧ place ≤ 16 then positional ds place else scientific ds place

/-- The shortest text of a number. -/
def text (x : Float) : String :=
  if x.isNaN then "nan"
  else if x.toBits ≥ 0x8000000000000000 then String.ofList ('-' :: unsignedText (-x))
  else String.ofList (unsignedText x)

end StylesheetTrace.Decimal
