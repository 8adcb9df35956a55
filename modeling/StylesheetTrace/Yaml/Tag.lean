import StylesheetTrace.Text.Lines
import StylesheetTrace.Yaml.Event
import StylesheetTrace.Yaml.Moment

/-!
# The types of nodes

A node has the type that its tag names, and a plain scalar without a tag the type that its text
looks like.  Which texts look like which type depends on the version of YAML.
-/

namespace StylesheetTrace.Yaml

/-- The type of a node. -/
inductive Tag where
  | null
  | bool
  | int
  | float
  | str
  | seq
  | map
  | timestamp
  | merge
  | value
  | binary
  | set
  | omap
  | pairs
  | other (name : String)
  deriving Repr, DecidableEq

/-- The two versions of YAML. -/
inductive Version where
  | v11
  | v12
  deriving Repr, DecidableEq

namespace Version

/-- The version with the given numbers; without any it is 1.2. -/
def ofNumbers : Option (Nat × Nat) → Except Breakdown Version
  | none | some (1, 2) => .ok v12
  | some (1, 1) => .ok v11
  | some (major, minor) => .error (.version major minor)

end Version

namespace Tag

/-- The names of the types behind the start that they share. -/
def names : List (String × Tag) :=
  [("null", null), ("bool", bool), ("int", int), ("float", float), ("str", str), ("seq", seq),
   ("map", map), ("timestamp", timestamp), ("merge", merge), ("value", value), ("binary", binary),
   ("set", set), ("omap", omap), ("pairs", pairs)]

/-- The full name of a type. -/
def fullName (name : String) : String := "tag:yaml.org,2002:" ++ name

/-- The type that a tag names.  A text whose tag has a handle is of a type that is not known. -/
def ofName (t : TagName) : Tag :=
  match names.find? fun n => fullName n.1 == t.text with
  | some (_, tag) => if tag == str && t.handled then other t.text else tag
  | none => other t.text

/-- The full name of the type. -/
def name : Tag → String
  | other name => name
  | tag => ((names.find? fun n => n.2 == tag).map fun n => fullName n.1).getD ""

/-- A scalar of the type is read as a whole, so that no other node may have it. -/
def isScalar : Tag → Bool
  | null | bool | int | float | str | timestamp | binary => true
  | _ => false

/-! ## What texts look like -/

/-- The words for truth values. -/
def boolWords : Version → List String
  | .v12 => ["true", "True", "TRUE", "false", "False", "FALSE"]
  | .v11 =>
    ["y", "Y", "yes", "Yes", "YES", "n", "N", "no", "No", "NO", "true", "True", "TRUE", "false",
     "False", "FALSE", "on", "On", "ON", "off", "Off", "OFF"]

/-- The words for no value. -/
def nullWords : List String := ["~", "null", "Null", "NULL", ""]

/-- The text without a sign in front. -/
def dropSign (s : List Char) : List Char :=
  match s with
  | '+' :: t | '-' :: t => t
  | _ => s

/-- The text has a character at least, and all satisfy `p`. -/
def allOf (p : Char → Bool) (s : List Char) : Bool := !s.isEmpty && s.all p

/-- A digit below a base up to ten, or an underscore. -/
def isDigitOf (base : Nat) (c : Char) : Bool :=
  c == '_' || (c.isDigit && decide (c.toNat - 48 < base))

/-- A hexadecimal digit or an underscore. -/
def isHexDigit (c : Char) : Bool :=
  c.isDigit || c == '_' || decide (('a' ≤ c ∧ c ≤ 'f') ∨ ('A' ≤ c ∧ c ≤ 'F'))

/-- A decimal digit or an underscore. -/
def isDecimal (c : Char) : Bool := isDigitOf 10 c

/-- A first digit and further digits. -/
def startsWithDigit (s : List Char) : Bool := s.head?.any Char.isDigit

/-- Groups of digits below sixty, each behind a colon. -/
def isSixties (s : List Char) : Bool :=
  match Text.splitOn ':' s with
  | [] :: groups@(_ :: _) =>
    groups.all fun g => match g with
      | [a] => a.isDigit
      | [a, b] => isDigitOf 6 a && a != '_' && b.isDigit
      | _ => false
  | _ => false

/-- The text is a whole number. -/
def isInt (v : Version) (text : List Char) : Bool :=
  let s := dropSign text
  (text.head?.any fun c => c == '-' || c == '+' || c.isDigit) &&
    match v, s with
    | _, '0' :: 'b' :: t => allOf (isDigitOf 2) t
    | _, '0' :: 'x' :: t => allOf isHexDigit t
    | .v12, '0' :: 'o' :: t => allOf (isDigitOf 8) t
    | .v12, _ => allOf isDecimal s
    | .v11, _ =>
      allOf (isDigitOf 8) s || s == ['0']
        || (startsWithDigit s && s.head? != some '0'
          && (s.all isDecimal || isSixties (s.dropWhile isDecimal)))

/-- The text is an exponent; its sign may be left out only if `bare`. -/
def isExponent (bare : Bool) (s : List Char) : Bool :=
  match s with
  | 'e' :: t | 'E' :: t =>
    match t with
    | '+' :: ds | '-' :: ds => allOf Char.isDigit ds
    | ds => bare && allOf Char.isDigit ds
  | _ => false

/-- The text is empty or an exponent. -/
def mayBeExponent (bare : Bool) (s : List Char) : Bool := s.isEmpty || isExponent bare s

/-- The words for numbers that are not finite, behind the point. -/
def infWords : List String := ["inf", "Inf", "INF"]

/-- The words for what is no number, behind the point. -/
def nanWords : List String := ["nan", "NaN", "NAN"]

/-- The text is a real number. -/
def isFloat (v : Version) (text : List Char) : Bool :=
  let s := dropSign text
  let signed := s.length != text.length
  match s with
  | '.' :: t =>
    infWords.contains (String.ofList t) || (!signed && nanWords.contains (String.ofList t))
      || ((v == .v12 || !signed) && !(t.takeWhile isDecimal).isEmpty
        && mayBeExponent false (t.dropWhile isDecimal))
  | _ =>
    startsWithDigit s &&
      match s.dropWhile isDecimal with
      | '.' :: t => mayBeExponent true (t.dropWhile isDecimal)
      | t => isExponent true t
        || (v == .v11 && isSixties (t.takeWhile (· != '.'))
          && (match t.dropWhile (· != '.') with
            | _ :: t => t.all isDecimal
            | [] => false))

/-- The type that a text looks like.  A line feed at its end does not count. -/
def ofText (v : Version) (text : List Char) : Tag :=
  let text := if text.length > 1 && text.getLast? == some '\n' then text.dropLast else text
  let s := String.ofList text
  if (boolWords v).contains s then bool
  else if isFloat v text then float
  else if isInt v text then int
  else if s == "<<" then merge
  else if nullWords.contains s then null
  else if Moment.looksLike text then timestamp
  else if s == "=" then value
  else if ["!", "&", "*"].contains s then other (fullName "yaml")
  else str

end Tag

end StylesheetTrace.Yaml
