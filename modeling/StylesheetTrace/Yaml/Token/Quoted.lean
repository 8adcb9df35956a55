import StylesheetTrace.Text.Surrogate
import StylesheetTrace.Yaml.Token.Property

/-!
# Quoted scalars

In apostrophes only the apostrophe itself is escaped, by doubling it.  In double quotes a backslash
begins an escape.  Line breaks are folded as in plain scalars, and blanks around them are dropped.
-/

namespace StylesheetTrace.Yaml

open StylesheetTrace.Text

/-- The character that an escape of one letter stands for. -/
def escaped? (c : Char) : Option Char :=
  [('0', '\x00'), ('a', '\x07'), ('b', '\x08'), ('t', '\t'), ('\t', '\t'), ('n', '\n'),
   ('v', '\x0b'), ('f', '\x0c'), ('r', '\r'), ('e', '\x1b'), (' ', ' '), ('"', '"'),
   ('/', '/'), ('\\', '\\'), ('N', '\x85'), ('_', '\xa0'), ('L', '\u2028'),
   ('P', '\u2029')].lookup c

/-- How many hexadecimal digits follow the letter of an escape. -/
def escapeSize? (c : Char) : Option Nat :=
  [('x', 2), ('u', 4), ('U', 8)].lookup c

/-- The character that hexadecimal digits give, or a stand-in for half of a surrogate pair. -/
def numericEscape (size : Nat) (c : Cursor) : Outcome (Char × Cursor) :=
  let ds := c.rest.take size
  match ds.find? fun d => (hexValue? d).isNone with
  | some d => c.fail (.expected (.hexDigits size) d)
  | none =>
    if ds.length < size then c.fail (.expected (.hexDigits size) endMark)
    else
      let n := hexNumber ds
      if n < 0x110000 then .ok (charOrStandIn n, Cursor.skip size c)
      else .error (.broken (.codePoint n))

/-- The breaks of empty lines, in front of what was read so far in reverse; a document may not end
here. -/
def quotedBreaks : Nat → Cursor → List Char → Outcome (List Char × Cursor)
  | 0, c, found => .ok (found, c)
  | n + 1, c, found =>
    if c.atSeparator then c.fail .separatorInQuotes
    else
      let c := c.skipWhile isSpaceOrTab
      match c.lineBreak? with
      | none => .ok (found, c)
      | some (b, c) => quotedBreaks n c (b :: found)

/-- A folded break, in front of what was read so far in reverse; `b` is the break and the position
is behind it. -/
def foldedBreak (b : Char) (c : Cursor) (found : List Char) : Outcome (List Char × Cursor) :=
  match quotedBreaks c.turns c [] with
  | .error e => .error e
  | .ok (breaks, c) =>
    .ok (if b != '\n' then breaks ++ b :: found
      else if breaks.isEmpty then ' ' :: found
      else breaks ++ found, c)

/-- The characters that an escape stands for, in front of what was read so far in reverse; the
position is behind the backslash. -/
def escape (c : Cursor) (found : List Char) : Outcome (List Char × Cursor) :=
  let ch := c.peek
  match escaped? ch, escapeSize? ch with
  | some e, _ => .ok (e :: found, c.step)
  | none, some size => (numericEscape size c.step).map fun (e, c) => (e :: found, c)
  | none, none =>
    if isBreak ch then quotedBreaks c.turns c.skipBreak found
    else c.fail (.unknownEscape ch)

/-- The next piece of a quoted scalar, in front of what was read so far in reverse.  None is read at
the closing quote. -/
def quotedPiece (quote : Char) (c : Cursor) (found : List Char) :
    Outcome (Option (List Char × Cursor)) :=
  let ch := c.peek
  if ch == '\'' && quote == '\'' && c.peekAt 1 == '\'' then
    .ok (some (ch :: found, Cursor.skip 2 c))
  else if ch == quote then .ok none
  else if ch == '\\' && quote == '"' then (escape c.step found).map some
  else if isWordEnd ch then
    let (blanks, c) := c.takeWhile isSpaceOrTab
    match c.lineBreak? with
    | some (b, c) => (foldedBreak b c found).map some
    | none =>
      if c.rest.isEmpty then c.fail .endInQuotes else .ok (some (blanks.reverse ++ found, c))
  else .ok (some (ch :: found, c.step))

/-- The pieces of a quoted scalar up to the closing quote.  Each takes a character, so that a bound
of the text's length suffices. -/
def quotedFrom (quote : Char) : Nat → Cursor → List Char → Outcome (List Char × Cursor)
  | 0, c, found => .ok (found.reverse, c)
  | n + 1, c, found =>
    match quotedPiece quote c found with
    | .error e => .error e
    | .ok none => .ok (found.reverse, c.step)
    | .ok (some (found, c)) => quotedFrom quote n c found

/-- A quoted scalar, its quotes included. -/
def quotedScalar (c : Cursor) : Outcome (List Char × Cursor) :=
  quotedFrom c.peek c.turns c.step []

end StylesheetTrace.Yaml
