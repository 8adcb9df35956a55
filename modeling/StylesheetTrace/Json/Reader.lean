import StylesheetTrace.Json.Basic
import StylesheetTrace.Text.Hex
import StylesheetTrace.Text.Number
import StylesheetTrace.Text.Scan
import StylesheetTrace.Text.Surrogate

/-!
# Reading JSON

A text is read as one JSON value.  A text that is none is refused at the position where the reading
stopped; numbers that are too long and values nested too deeply are refused without one.
-/

namespace StylesheetTrace.Json

open StylesheetTrace.Text

/-- Why a text is no JSON value.  A malformed text is refused where `rest` begins. -/
inductive ReadError where
  | malformed (rest : List Char)
  | number (e : TooLong)
  | tooDeep
  deriving Repr, DecidableEq

/-- The text after the blanks that JSON allows. -/
def skipBlanks (s : List Char) : List Char :=
  s.dropWhile fun c => c == ' ' || c == '\t' || c == '\n' || c == '\r'

/-- The character that an escape of one letter stands for. -/
def escaped? : Char → Option Char
  | '"' => some '"'
  | '\\' => some '\\'
  | '/' => some '/'
  | 'b' => some '\x08'
  | 'f' => some '\x0c'
  | 'n' => some '\n'
  | 'r' => some '\r'
  | 't' => some '\t'
  | _ => none

/-- The value of four hexadecimal digits, and the text after them. -/
def hexQuad? (s : List Char) : Option (Nat × List Char) :=
  let ds := s.take 4
  if ds.length = 4 && ds.all fun c => (hexValue? c).isSome then
    some (hexNumber ds, s.drop 4)
  else none

/-- The character of a numeric escape, read behind the letter `u`, and the text after it; `fromU`
begins with that letter.  Some text must follow an escape.  Two escapes make a pair of surrogates;
half of one may stand alone. -/
def unicodeEscape (fromU s : List Char) : Except ReadError (Char × List Char) :=
  match hexQuad? s with
  | none => .error (.malformed fromU)
  | some (n, rest) =>
    let alone : Except ReadError (Char × List Char) := .ok (charOrStandIn n, rest)
    if rest.isEmpty then .error (.malformed fromU)
    else if isHighSurrogate n then
      match rest with
      | '\\' :: 'u' :: t =>
        match hexQuad? t with
        | none => .error (.malformed ('u' :: t))
        | some (m, rest') =>
          if isLowSurrogate m && !rest'.isEmpty then .ok (joinedPair n m, rest') else alone
      | _ => alone
    else alone

/-- The characters of a string up to its closing quote, `found` being those read so far in reverse,
and the text after it; `start` begins with the opening quote.  The bound is that of the text. -/
def stringFrom (start : List Char) : Nat → List Char → List Char →
    Except ReadError (String × List Char)
  | 0, _, _ => .error (.malformed start)
  | _ + 1, [], _ => .error (.malformed start)
  | n + 1, c :: s, found =>
    if c == '"' then .ok (String.ofList found.reverse, s)
    else if c == '\\' then
      match s with
      | [] => .error (.malformed start)
      | 'u' :: t =>
        match unicodeEscape s t with
        | .error e => .error e
        | .ok (ch, rest) => stringFrom start n rest (ch :: found)
      | e :: t =>
        match escaped? e with
        | some ch => stringFrom start n t (ch :: found)
        | none => .error (.malformed (c :: s))
    else if c.toNat < 0x20 then .error (.malformed (c :: s))
    else stringFrom start n s (c :: found)

/-- A string whose opening quote stands at the head of `start`, read behind that quote. -/
def readString (bound : Nat) (start s : List Char) : Except ReadError (String × List Char) :=
  stringFrom start bound s []

/-- The digits of a fraction behind its point. -/
def fraction (s : List Char) : List Char × List Char :=
  match s with
  | '.' :: t =>
    let ds := t.takeWhile Char.isDigit
    if ds.isEmpty then ([], s) else (ds, t.dropWhile Char.isDigit)
  | _ => ([], s)

/-- The value of an exponent behind its letter. -/
def exponent (s : List Char) : Option Int × List Char :=
  match s with
  | c :: t =>
    if c == 'e' || c == 'E' then
      let negative := t.head? == some '-'
      let u := if negative || t.head? == some '+' then t.drop 1 else t
      let ds := u.takeWhile Char.isDigit
      if ds.isEmpty then (none, s)
      else
        let n : Int := digitsValue ds
        (some (if negative then -n else n), u.dropWhile Char.isDigit)
    else (none, s)
  | [] => (none, s)

/-- The digits before the point: a zero stands alone. -/
def wholeDigits (s : List Char) : List Char × List Char :=
  match s with
  | '0' :: t => (['0'], t)
  | _ => (s.takeWhile Char.isDigit, s.dropWhile Char.isDigit)

/-- A number. -/
def readNumber (start : List Char) : Except ReadError (Json × List Char) :=
  let negative := start.head? == some '-'
  let (ds, s) := wholeDigits (if negative then start.drop 1 else start)
  if ds.isEmpty then .error (.malformed start)
  else
    let (fs, s) := fraction s
    let (e, s) := exponent s
    let sign (n : Nat) : Int := if negative then -(n : Int) else n
    if fs.isEmpty && e.isNone then
      match readDigits ds with
      | .ok n => .ok (.int (sign n), s)
      | .error err => .error (.number err)
    else .ok (.real (sign (digitsValue (ds ++ fs))) (e.getD 0 - fs.length), s)

/-- The words that stand for values. -/
def wordValues : List (String × Json) :=
  [("null", .null), ("true", .bool true), ("false", .bool false), ("NaN", .notFinite),
   ("Infinity", .notFinite), ("-Infinity", .notFinite)]

/-- A value that is written as one word. -/
def readWord? (s : List Char) : Option (Json × List Char) :=
  wordValues.findSome? fun (w, v) => (after? w.toList s).map fun rest => (v, rest)

/-- How deeply values may be nested. -/
def maxDepth : Nat := 950

mutual

/-- The value at the head of a text.  The first bound is that of nesting.  The second falls by two
at most for each character that is read. -/
def readValue : Nat → Nat → List Char → Except ReadError (Json × List Char)
  | _, 0, s => .error (.malformed s)
  | depth, n + 1, s =>
    match s with
    | '"' :: t => (readString n s t).map fun (text, rest) => (.str text, rest)
    | '\x7b' :: t =>
      match depth with
      | 0 => .error .tooDeep
      | depth + 1 =>
        match skipBlanks t with
        | '\x7d' :: rest => .ok (.obj [], rest)
        | t => readFields depth n t []
    | '[' :: t =>
      match depth with
      | 0 => .error .tooDeep
      | depth + 1 =>
        match skipBlanks t with
        | ']' :: rest => .ok (.arr [], rest)
        | t => readItems depth n t []
    | _ => match readWord? s with
      | some found => .ok found
      | none => readNumber s

/-- The items of an array from the next one on, with those read so far in reverse. -/
def readItems : Nat → Nat → List Char → List Json → Except ReadError (Json × List Char)
  | _, 0, s, _ => .error (.malformed s)
  | depth, n + 1, s, found =>
    match readValue depth n s with
    | .error e => .error e
    | .ok (v, rest) =>
      match skipBlanks rest with
      | ']' :: rest => .ok (.arr (v :: found).reverse, rest)
      | ',' :: rest => readItems depth n (skipBlanks rest) (v :: found)
      | rest => .error (.malformed rest)

/-- The fields of an object from the next one on, with those read so far in reverse. -/
def readFields : Nat → Nat → List Char → List (String × Json) →
    Except ReadError (Json × List Char)
  | _, 0, s, _ => .error (.malformed s)
  | depth, n + 1, s, found =>
    match s with
    | '"' :: t =>
      match readString n s t with
      | .error e => .error e
      | .ok (name, rest) =>
        match skipBlanks rest with
        | ':' :: rest =>
          match readValue depth n (skipBlanks rest) with
          | .error e => .error e
          | .ok (v, rest) =>
            match skipBlanks rest with
            | '\x7d' :: rest => .ok (ofFields ((name, v) :: found).reverse, rest)
            | ',' :: rest => readFields depth n (skipBlanks rest) ((name, v) :: found)
            | rest => .error (.malformed rest)
        | rest => .error (.malformed rest)
    | _ => .error (.malformed s)

end

/-- The value that a text holds, with nothing but blanks around it. -/
def read (s : List Char) : Except ReadError Json :=
  match readValue maxDepth (2 * s.length + 2) (skipBlanks s) with
  | .error e => .error e
  | .ok (v, rest) =>
    match skipBlanks rest with
    | [] => .ok v
    | rest => .error (.malformed rest)

end StylesheetTrace.Json
