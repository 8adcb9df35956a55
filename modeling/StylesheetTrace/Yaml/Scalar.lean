import StylesheetTrace.Text.Lower
import StylesheetTrace.Text.Numeral
import StylesheetTrace.Yaml.Tag

/-!
# Numbers in YAML

Underscores in numbers are passed over.  A whole number may have a base of its own, and by the
rules of YAML 1.1 numbers may be written in sixties, like times.  Behind the signs of YAML a number
is read as any other text with a number, so that it may have a sign and blanks of its own.
-/

namespace StylesheetTrace.Yaml.Scalar

open StylesheetTrace.Text

/-- The text without underscores. -/
def dropUnderscores (s : List Char) : List Char := s.filter (· != '_')

/-- The whole number that a text holds to a base. -/
def wholeOf (base : Nat) (s : List Char) : Except Breakdown Int :=
  (readWhole base s).mapError fun e =>
    match e with
    | .tooLong e => .tooLong e
    | .noNumber => .noWhole base (String.ofList s)

/-- The whole number that digits to a base write behind its mark. -/
def marked (v : Version) (base : Nat) (ds : List Char) : Except Breakdown Int :=
  if ds.isEmpty && v == .v12 then .error .emptyText else wholeOf base ds

/-- A whole number in sixties. -/
def wholeSixties (s : List Char) : Except Breakdown Int :=
  ((splitOn ':' s).mapM (wholeOf 10)).map fun ns => ns.foldl (fun n d => 60 * n + d) 0

/-- A whole number behind its sign. -/
def unsigned (v : Version) (s : List Char) : Except Breakdown Int :=
  match s with
  | ['0'] => .ok 0
  | [] => .error .emptyText
  | '0' :: 'b' :: ds => marked v 2 ds
  | '0' :: 'x' :: ds => marked v 16 ds
  | '0' :: 'o' :: ds => marked v 8 ds
  | c :: _ =>
    if v == .v11 && c == '0' then wholeOf 8 s
    else if v == .v11 && s.contains ':' then wholeSixties s
    else wholeOf 10 s

/-- A whole number. -/
def whole (v : Version) (text : List Char) : Except Breakdown Int :=
  let (negative, s) := splitSign (dropUnderscores text)
  (unsigned v s).map fun n => if negative then -n else n

/-- A real number that was read, where the word for what is no number always gives the same
value. -/
inductive Real where
  | number (x : Float)
  | noNumber

/-- The real number that a text holds. -/
def realOf (s : List Char) : Except Breakdown Float :=
  match readReal? s with
  | some x => .ok x
  | none => .error (.noReal (String.ofList s))

/-- A real number in sixties. -/
def realSixties (s : List Char) : Except Breakdown Float :=
  ((splitOn ':' s).mapM realOf).map fun xs =>
    (xs.reverse.foldl
      (fun (acc : Float × Float) x => (acc.1 + x * acc.2, acc.2 * 60.0)) (0.0, 1.0)).1

/-- A text with an exponent has one `e`, or else one `E`, and something behind it. -/
def checkExponent (text : List Char) : Except Breakdown Unit :=
  let parts := if (splitOn 'e' text).length = 2 then splitOn 'e' text else splitOn 'E' text
  match parts with
  | [_, []] => .error .emptyText
  | [_, _] => .ok ()
  | _ => .error (.exponentParts parts.length)

/-- A real number behind its sign; `text` is the whole scalar as it is written. -/
def unsignedReal (v : Version) (text s : List Char) : Except Breakdown Real :=
  if s == ".inf".toList then .ok (.number (1.0 / 0.0))
  else if s == ".nan".toList then .ok .noNumber
  else if v == .v11 && s.contains ':' then (realSixties s).map .number
  else do
    if s.contains 'e' then checkExponent text
    (realOf s).map .number

/-- A real number. -/
def real (v : Version) (text : List Char) : Except Breakdown Real :=
  let s := toSmall (dropUnderscores text)
  let (negative, t) := splitSign s
  if s.isEmpty then .error .emptyText
  else
    (unsignedReal v text t).map fun r =>
      match r with
      | .number x => .number (if negative then -x else x)
      | .noNumber => .noNumber

/-- The words for truth values, in small letters. -/
def truthWords : List (String × Bool) :=
  [("yes", true), ("no", false), ("y", true), ("n", false), ("true", true), ("false", false),
   ("on", true), ("off", false)]

/-- A truth value. -/
def truth (text : List Char) : Except Breakdown Bool :=
  let word := String.ofList (toSmall text)
  match truthWords.lookup word with
  | some b => .ok b
  | none => .error (.truth word)

end StylesheetTrace.Yaml.Scalar
