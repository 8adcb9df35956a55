import StylesheetTrace.Decimal.Nearest
import StylesheetTrace.Text.Blank
import StylesheetTrace.Text.Hex
import StylesheetTrace.Text.Number

/-!
# Numbers as they are typed

A number may have white space around it and a sign, its digits may be those of any script, and
single underscores may stand between them.  A whole number is written to a base; other bases than
ten may be repeated in front of the digits.  Only a decimal number can be too long, and it is so
whatever follows its digits.
-/

namespace StylesheetTrace.Text

/-- Why a text is no whole number. -/
inductive Misread where
  | tooLong (e : TooLong)
  | noNumber
  deriving Repr, DecidableEq

/-- White space around a number: the information separators do not count. -/
def isNumberSpace (c : Char) : Bool :=
  isBlank c && !decide (28 ≤ c.toNat ∧ c.toNat ≤ 31)

/-- The value of a decimal digit of any script, or of a letter that stands for a greater one. -/
def anyDigitValue? (c : Char) : Option Nat := (digitValue? c).orElse fun _ => hexValue? c

/-- A digit to a base. -/
def isDigitTo (base : Nat) (c : Char) : Bool := (anyDigitValue? c).any fun v => decide (v < base)

/-- The text without the mark of its base, behind which an underscore may stand. -/
def dropBase (base : Nat) (s : List Char) : List Char :=
  match s with
  | '0' :: c :: t =>
    if [(2, 'b'), (8, 'o'), (16, 'x')].contains (base, c.toLower) then
      (if t.head? == some '_' then t.drop 1 else t)
    else s
  | _ => s

/-- The text behind a sign, and whether it was a minus sign. -/
def splitSign (s : List Char) : Bool × List Char :=
  match s with
  | '-' :: t => (true, t)
  | '+' :: t => (false, t)
  | _ => (false, s)

/-- No underscore stands at an end of the text or next to another one. -/
def separatesWell (s : List Char) : Bool :=
  (s.foldl (fun acc c => (acc.1 && (c != '_' || acc.2), c != '_')) (true, false)) == (true, true)

/-- The whole number that a text holds, to a base up to sixteen. -/
def readWhole (base : Nat) (s : List Char) : Except Misread Int :=
  let (negative, t) := splitSign (s.dropWhile isNumberSpace)
  let t := dropBase base t
  let isPart (c : Char) : Bool := c == '_' || isDigitTo base c
  let run := t.takeWhile isPart
  let ds := run.filter (· != '_')
  if !separatesWell run then .error .noNumber
  else if base = 10 ∧ ds.length > TooLong.limit then .error (.tooLong ⟨ds.length⟩)
  else if !(t.dropWhile isPart).all isNumberSpace then .error .noNumber
  else
    let n := ds.foldl (fun n c => base * n + (anyDigitValue? c).getD 0) 0
    .ok (if negative then -(n : Int) else n)

/-- The text with decimal digits of any script written as those of ASCII. -/
def plainDigits (s : List Char) : List Char :=
  s.map fun c => ((digitValue? c).map fun n => Char.ofNat (48 + n)).getD c

/-- The decimal number that a text holds: digits with a point among them, and an exponent. -/
def readDecimal? (s : List Char) : Option Float :=
  let ds := s.takeWhile Char.isDigit
  let t := s.dropWhile Char.isDigit
  let (fs, t) := match t with
    | '.' :: t => (t.takeWhile Char.isDigit, t.dropWhile Char.isDigit)
    | _ => ([], t)
  let value (e : Int) : Float := Decimal.nearest (digitsValue (ds ++ fs)) (e - fs.length)
  if ds.isEmpty && fs.isEmpty then none
  else
    match t with
    | [] => some (value 0)
    | c :: t =>
      let (negative, es) := splitSign t
      if c.toLower == 'e' && !es.isEmpty && es.all Char.isDigit then
        some (value (if negative then -(digitsValue es : Int) else digitsValue es))
      else none

/-- The real number that a text holds: a decimal number, or a word for what is infinite or for what
is no number, in letters of either case. -/
def readReal? (s : List Char) : Option Float :=
  let (negative, t) := splitSign (trimWhile isNumberSpace (plainDigits s))
  let word := String.ofList (t.map Char.toLower)
  let magnitude :=
    if word == "inf" || word == "infinity" then some (1.0 / 0.0)
    else if word == "nan" then some (0.0 / 0.0)
    else readDecimal? t
  magnitude.map fun x => if negative then -x else x

end StylesheetTrace.Text
