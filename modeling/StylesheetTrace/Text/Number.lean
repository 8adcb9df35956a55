import StylesheetTrace.Text.Digit

/-!
# Whole numbers in text

A number is read from decimal digits of any script.  More than 4300 digits, leading zeros included,
are refused.  Counts in messages are written with a comma between groups of three digits.
-/

namespace StylesheetTrace.Text

/-- A number was refused because it has too many digits. -/
structure TooLong where
  /-- How many digits the number has. -/
  digits : Nat
  deriving Repr, DecidableEq

namespace TooLong

/-- The longest number that is read. -/
def limit : Nat := 4300

/-- The wording of the refusal. -/
def message (e : TooLong) : String :=
  s!"Exceeds the limit ({limit} digits) for integer string conversion: value has {e.digits} " ++
    "digits; use sys.set_int_max_str_digits() to increase the limit"

end TooLong

/-- The value of a row of digits, the most significant first. -/
def digitsValue (ds : List Char) : Nat :=
  ds.foldl (fun n c => 10 * n + (digitValue? c).getD 0) 0

/-- The number written by a row of digits, if it is not too long. -/
def readDigits (ds : List Char) : Except TooLong Nat :=
  if ds.length > TooLong.limit then .error ⟨ds.length⟩ else .ok (digitsValue ds)

/-- The digits in groups of three, counted from the end. -/
def groupThousands (ds : List Char) : List Char :=
  (ds.foldr
    (fun c acc =>
      if acc.1 = 3 then (1, c :: ',' :: acc.2) else (acc.1 + 1, c :: acc.2))
    ((0, []) : Nat × List Char)).2

/-- A whole number with a comma between groups of three digits. -/
def grouped : Int → String
  | .ofNat n => String.ofList (groupThousands (toString n).toList)
  | .negSucc n => "-" ++ String.ofList (groupThousands (toString (n + 1)).toList)

/-- A number with zeros in front up to a width. -/
def padded (width n : Nat) : String :=
  let ds := (toString n).toList
  String.ofList (List.replicate (width - ds.length) '0' ++ ds)

end StylesheetTrace.Text
