import StylesheetTrace.Text.Blank
import StylesheetTrace.Text.Lines
import StylesheetTrace.Text.Scan

/-!
# Files of variables

A file of variables has a binding `NAME=value` on each line.  A value may stand in quotes, where it
may go on over lines; a comment begins with a number sign.  A line that is no binding is passed
over, and its number is kept.  A value may name other variables, as `${NAME}` or with a default as
`${NAME:-default}`.
-/

namespace StylesheetTrace.Dotenv

open StylesheetTrace.Text

/-- A character that ends a line. -/
def isLineEnd (c : Char) : Bool := c == '\n' || c == '\r'

/-- White space that ends no line. -/
def isSpace (c : Char) : Bool := isBlank c && !isLineEnd c

/-- The text behind the rest of a line. -/
def dropLine (s : List Char) : List Char :=
  (s.dropWhile fun c => !isLineEnd c).drop 1

/-- The text behind the word `export` and the white space after it, or the same text. -/
def dropExport (s : List Char) : List Char :=
  match after? "export".toList s with
  | some rest => if rest.head?.any isSpace then rest.dropWhile isSpace else s
  | none => s

/-- A character of a name that is not quoted. -/
def isNameChar (c : Char) : Bool := c != '=' && c != '#' && !isBlank c

/-- The name of a binding, and the text after it.  A comment has none. -/
def name? (s : List Char) : Option (Option (List Char) × List Char) :=
  match s with
  | '#' :: _ => some (none, s)
  | '\'' :: t =>
    match cut? ['\''] t with
    | some (name, rest) => if name.isEmpty then none else some (some name, rest)
    | none => none
  | _ => (run? isNameChar s).map fun (name, rest) => (some name, rest)

/-- A quoted value behind its opening quote, and the text behind the closing one; `found` is what
was read so far, in reverse.  A backslash belongs to the character after it, whichever that is.  -/
def quotedValue? (quote : Char) : List Char → List Char → Option (List Char × List Char)
  | '\\' :: c :: s, found => quotedValue? quote s (c :: '\\' :: found)
  | c :: s, found =>
    if c == quote then some (found.reverse, s)
    else if c == '\\' then none
    else quotedValue? quote s (c :: found)
  | [], _ => none

/-- The characters that a letter behind a backslash stands for in double quotes. -/
def escapes : List (Char × Char) :=
  [('\\', '\\'), ('\'', '\''), ('"', '"'), ('a', '\x07'), ('b', '\x08'), ('f', '\x0c'), ('n', '\n'),
   ('r', '\r'), ('t', '\t'), ('v', '\x0b')]

/-- An escape, of one of the letters in `known`. -/
def escape? (known : List (Char × Char)) : Reader Char
  | '\\' :: c :: s => (known.lookup c).map fun e => (e, s)
  | _ => none

/-- The text with its escapes replaced. -/
def replaceEscapes (known : List (Char × Char)) (s : List Char) : List Char :=
  (pieces (escape? known) s).map fun p => match p with
    | .plain c => c
    | .form c => c

/-- A comment behind a value: white space and a number sign. -/
def comment? : Reader Unit := fun s =>
  match run? isBlank s with
  | some (_, '#' :: _) => some ((), [])
  | _ => none

/-- A value without quotes: what stands on the line before a comment. -/
def plainValue (s : List Char) : List Char :=
  dropEndWhile isBlank ((leftmost? comment? s).elim s fun (value, _) => value)

/-- The value of a binding behind its equals sign, and the text after it.  White space in front of
it does not belong to it, but makes a number sign begin a comment. -/
def value? (t : List Char) : Option (List Char × List Char) :=
  match t.dropWhile isSpace with
  | '\'' :: s =>
    (quotedValue? '\'' s []).map fun (v, rest) =>
      (replaceEscapes [('\\', '\\'), ('\'', '\'')] v, rest)
  | '"' :: s => (quotedValue? '"' s []).map fun (v, rest) => (replaceEscapes escapes v, rest)
  | s =>
    let onLine (c : Char) : Bool := !isLineEnd c
    let value := if t.head?.any isSpace && s.head? == some '#' then [] else
      plainValue (s.takeWhile onLine)
    some (value, s.dropWhile onLine)

/-- The text behind the end of a line, which may hold a comment. -/
def lineEnd? (s : List Char) : Option (List Char) :=
  let s := s.dropWhile isSpace
  let s := if s.head? == some '#' then s.dropWhile fun c => !isLineEnd c else s
  match s.dropWhile isSpace with
  | [] => some []
  | '\r' :: '\n' :: rest => some rest
  | c :: rest => if isLineEnd c then some rest else none

/-- The value behind a name, if there is one, and the text after it. -/
def assigned? (s : List Char) : Option (Option (List Char) × List Char) :=
  match s.dropWhile isSpace with
  | '=' :: t => (value? t).map fun (v, rest) => (some v, rest)
  | t => some (none, t)

/-- A binding, if the line has one: a name, and a value if there is one. -/
abbrev Binding := Option (String × Option String)

/-- The binding at the head of a text, which begins with no white space, and the text behind its
lines. -/
def binding? (s : List Char) : Option (Binding × List Char) := do
  let (name, t) ← name? (dropExport s)
  let (value, t) ← assigned? t
  let rest ← lineEnd? t
  pure (name.map fun n => (String.ofList n, value.map String.ofList), rest)

/-- Where a line that is no binding stopped being one: it is passed over from there on. -/
def stopped (s : List Char) : List Char :=
  let s := dropExport s
  match name? s with
  | none => s
  | some (_, t) =>
    match assigned? t with
    | some (_, t) =>
      let t := t.dropWhile isSpace
      if t.head? == some '#' then t.dropWhile fun c => !isLineEnd c else t
    | none => (t.dropWhile isSpace).drop 1 |>.dropWhile isSpace

/-- What a file of variables says: a binding, or nothing that can be read, from a line on. -/
inductive Statement where
  | binding (name : String) (value : Option String)
  | unreadable (line : Nat)
  deriving Repr, DecidableEq

/-- How many lines end in a text. -/
def lineEnds (s : List Char) : Nat := s.count '\n'

/-- The statements of a text, with those read so far in reverse; `total` is how many lines end in
the whole file.  A statement begins where the one before it ended, so that empty lines belong to
the one behind them.  Each turn takes a character, so that a bound of the text's length suffices.
-/
def statementsFrom (total : Nat) : Nat → List Char → List Statement → List Statement
  | 0, _, found => found.reverse
  | n + 1, s, found =>
    match s.dropWhile isBlank with
    | [] => found.reverse
    | t =>
      match binding? t with
      | some (some (name, value), rest) =>
        statementsFrom total n rest (.binding name value :: found)
      | some (none, rest) => statementsFrom total n rest found
      | none =>
        let line := total - lineEnds s + 1
        statementsFrom total n (dropLine (stopped t)) (.unreadable line :: found)

/-- The text without a byte order mark. -/
def dropMark (s : List Char) : List Char := if s.head? == some '\ufeff' then s.drop 1 else s

/-- The statements of a file, in its order.  Its lines may end in any way. -/
def statements (s : String) : List Statement :=
  let s := normalizeLineEnds (dropMark s.toList)
  statementsFrom (lineEnds s) (s.length + 1) s []

/-- The bindings of a file, in its order. -/
def bindings (s : String) : List (String × Option String) :=
  (statements s).filterMap fun t => match t with
    | .binding name value => some (name, value)
    | .unreadable _ => none

/-- The lines from which a file can not be read. -/
def unreadableLines (s : String) : List Nat :=
  (statements s).filterMap fun t => match t with
    | .binding _ _ => none
    | .unreadable line => some line

/-! ## Variables in values -/

/-- Values by the names of their variables, in the order in which the names were first given. -/
abbrev Variables := List (String × Option String)

/-- The variables with a value for one of them. -/
def assign (vs : Variables) (name : String) (value : Option String) : Variables :=
  if vs.any fun v => v.1 == name then vs.map fun v => if v.1 == name then (name, value) else v
  else vs ++ [(name, value)]

/-- A character of the name of a variable inside of a value. -/
def isReferenceChar (c : Char) : Bool := c != ':' && c != '\x7d'

/-- A reference to a variable. -/
structure Reference where
  /-- The name of the variable. -/
  name : String
  /-- What stands for it where it is not set. -/
  default : String
  deriving Repr, DecidableEq

/-- A reference to a variable. -/
def reference? : Reader Reference
  | '$' :: '\x7b' :: s =>
    let name := String.ofList (s.takeWhile isReferenceChar)
    match s.dropWhile isReferenceChar with
    | '\x7d' :: rest => some (⟨name, ""⟩, rest)
    | ':' :: '-' :: t => (cut? ['\x7d'] t).map fun (d, rest) => (⟨name, String.ofList d⟩, rest)
    | _ => none
  | _ => none

/-- The value of a reference: a variable without a value stands for nothing. -/
def Reference.resolve (vs : Variables) (r : Reference) : String :=
  match vs.lookup r.name with
  | some value => value.getD ""
  | none => r.default

/-- A value with its references replaced. -/
def expand (vs : Variables) (value : String) : String :=
  String.join ((pieces reference? value.toList).map fun p => match p with
    | .plain c => String.singleton c
    | .form r => r.resolve vs)

/-- The variables of a text.  A value may name those before it, and else those of `outer`. -/
def Variables.ofText (outer : Variables) (s : String) : Variables :=
  (bindings s).foldl
    (fun vs (name, value) => assign vs name (value.map (expand (vs ++ outer))))
    []

end StylesheetTrace.Dotenv
