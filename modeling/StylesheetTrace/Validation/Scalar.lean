import StylesheetTrace.Json.Basic
import StylesheetTrace.Text.Lines
import StylesheetTrace.Text.Numeral
import StylesheetTrace.Validation.Checked

/-!
# Checks of single values

A whole number may be given as a number without a fraction, as a truth value or as a text of digits;
a truth value also as one of a few words or as 1 or 0.  Texts are accepted as they are.
-/

namespace StylesheetTrace.Validation

open StylesheetTrace.Text

/-- A text. -/
def text : Json → Checked String
  | .str s => .valid s
  | _ => .fail .stringType

/-- A whole number in its plain form: a minus sign or none, and digits without a zero in front.  A
row of digits that is too long is refused as such, whatever follows it. -/
def plainWhole (s : List Char) : Except FaultKind Int :=
  let negative := s.head? == some '-'
  let ds := if negative then s.drop 1 else s
  let run := ds.takeWhile Char.isDigit
  let zeroFirst := run.head? == some '0'
  if !zeroFirst && run.length > TooLong.limit then .error .intParsingSize
  else if run.isEmpty || run.length != ds.length || (zeroFirst && run.length != 1) then
    .error .intParsing
  else .ok (if negative then -(digitsValue run : Int) else digitsValue run)

/-- The digits behind zeros in front, among which underscores may stand.  A sign may stand behind
them, and of nothing but zeros one is left; `zero` is the last character that was passed over. -/
def dropZerosFrom? (zero : Char) : List Char → Option (List Char)
  | [] => some [zero]
  | c :: s =>
    if c == '0' || c == '_' then dropZerosFrom? c s
    else if c == '.' then some (zero :: c :: s)
    else if c.isDigit || c == '-' then some (c :: s)
    else none

/-- The text without zeros in front. -/
def dropZeros? (s : List Char) : Option (List Char) :=
  match s with
  | '0' :: t => dropZerosFrom? '0' t
  | c :: _ => if c.isDigit || c == '-' then some s else none
  | [] => none

/-- The text without a point and zeros at its end. -/
def dropZeroFraction (s : List Char) : List Char :=
  match s.dropWhile (· != '.') with
  | _ :: c :: zeros => if (c :: zeros).all (· == '0') then s.takeWhile (· != '.') else s
  | _ => s

/-- The text without its underscores, which must stand alone between other characters. -/
def joinUnderscores? (s : List Char) : Option (List Char) :=
  let parts := splitOn '_' s
  if parts.all fun p => !p.isEmpty then some parts.flatten else none

/-- The plain form of a whole number that may have a plus sign, zeros in front, a fraction of zeros
and underscores between its digits. -/
def plainForm? (s : List Char) : Option (List Char) := do
  let s := if s.head? == some '+' then s.drop 1 else s
  let sign := s.takeWhile (· == '-') |>.take 1
  let digits ← dropZeros? (s.drop sign.length)
  pure (sign ++ (← joinUnderscores? (dropZeroFraction digits)))

/-- The whole number that a text holds, in its plain form or in one that is brought to it. -/
def parseWhole (s : List Char) : Checked Int :=
  let s := trimWhile isNumberSpace s
  let read : Except FaultKind Int :=
    match plainWhole s, plainForm? s with
    | .error .intParsing, some t => plainWhole t
    | r, _ => r
  match read with
  | .ok n => .valid n
  | .error kind => .fail kind

/-- The whole number that a real number is. -/
def wholeOfReal (x : Float) : Checked Int :=
  if x.isNaN || x.isInf then .fail .finiteNumber
  else if x.floor != x then .fail .intFromFloat
  else if x.abs < 9223372036854775808.0 then .valid x.toInt64.toInt
  else .fail .intParsingSize

/-- A whole number. -/
def whole : Json → Checked Int
  | .int n => .valid n
  | .bool b => .valid (if b then 1 else 0)
  | .real m e => wholeOfReal (Decimal.nearest m e)
  | .notFinite => .fail .finiteNumber
  | .str s => parseWhole s.toList
  | _ => .fail .intType

/-- A whole number that is not below `low`, as the count of its distance from zero. -/
def atLeast (low : Nat) (j : Json) : Checked Nat :=
  (whole j).andThen fun n => if n < low then .fail .greaterThanEqual else .valid n.toNat

/-- The words for the two truth values. -/
def truthWords : List (String × Bool) :=
  [("1", true), ("t", true), ("true", true), ("y", true), ("yes", true), ("on", true),
   ("0", false), ("f", false), ("false", false), ("n", false), ("no", false), ("off", false)]

/-- A truth value given as a number, which must fit into 64 bits. -/
def truthOfWhole (n : Int) : Checked Bool :=
  if n = 0 then .valid false
  else if n = 1 then .valid true
  else if -0x8000000000000000 ≤ n ∧ n < 0x8000000000000000 then .fail .boolParsing
  else .fail .boolType

/-- A truth value. -/
def truth : Json → Checked Bool
  | .bool b => .valid b
  | .str s => ((truthWords.lookup (String.ofList (s.toList.map Char.toLower))).map .valid).getD
      (.fail .boolParsing)
  | .int n => truthOfWhole n
  | .real m e =>
    match wholeOfReal (Decimal.nearest m e) with
    | .valid n => truthOfWhole n
    | .faulty _ => .fail .boolType
  | _ => .fail .boolType

/-- A value that `ofName?` knows by its name. -/
def choice {α : Type} (ofName? : String → Option α) : Json → Checked α
  | .str s => ((ofName? s).map .valid).getD (.fail .enum)
  | _ => .fail .enum

/-- A value that may be null. -/
def nullable {α : Type} (read : Json → Checked α) : Json → Checked (Option α)
  | .null => .valid none
  | j => (read j).map some

/-- A list of values. -/
def listOf {α : Type} (read : Json → Checked α) : Json → Checked (List α)
  | .arr items => .all (items.zipIdx.map fun (j, k) => (read j).within (.item k))
  | _ => .fail .listType

/-- Texts by their names. -/
def textsByName : Json → Checked (List (String × String))
  | .obj fields =>
    .all (fields.map fun (name, j) => ((text j).map fun s => (name, s)).within (.field name))
  | _ => .fail .dictType

/-- The value of a field that must be given. -/
def required {α : Type} (read : Json → Checked α) (name : String) (j : Json) : Checked α :=
  ((j.field? name).elim (.fail .missing) read).within (.field name)

/-- The value of a field, or its default when it is not given. -/
def optional {α : Type} (read : Json → Checked α) (default : α) (name : String) (j : Json) :
    Checked α :=
  ((j.field? name).elim (.valid default) read).within (.field name)

/-- A record, which only an object can be. -/
def record {α : Type} (kind : FaultKind) (read : Json → Checked α) (j : Json) : Checked α :=
  match j with
  | .obj _ => read j
  | _ => .fail kind

end StylesheetTrace.Validation
