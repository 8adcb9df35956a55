import StylesheetTrace.Text.Scan

/-!
# Reading positions in a YAML text

A cursor is what is left of a text together with how far it has come: in characters, in lines
counted from 1, and in columns counted from 0.  It also knows the size of the whole text, which
bounds every loop that takes a character a turn.
-/

namespace StylesheetTrace.Yaml

/-- Stands for the end of a text; it occurs in none. -/
def endMark : Char := '\x00'

/-- A character that ends a line. -/
def isBreak (c : Char) : Bool :=
  c == '\n' || c == '\r' || c == '\x85' || c == '\u2028' || c == '\u2029'

/-- A character that ends a run of text on a line, or the end of the text. -/
def isEnd (c : Char) : Bool :=
  c == endMark || isBreak c

/-- A character that ends a word: a blank, an end of line or the end of the text. -/
def isWordEnd (c : Char) : Bool :=
  isEnd c || c == ' ' || c == '\t'

/-- A blank or a tabulator. -/
def isSpaceOrTab (c : Char) : Bool := c == ' ' || c == '\t'

/-- A position in a text. -/
structure Cursor where
  /-- The text from the position on. -/
  rest : List Char
  /-- How many characters stand before it. -/
  index : Nat
  /-- Its line, counted from 1. -/
  line : Nat
  /-- Its column, counted from 0. -/
  column : Nat
  /-- How many characters the text has. -/
  size : Nat
  deriving Repr, DecidableEq

namespace Cursor

/-- The beginning of a text. -/
def start (s : List Char) : Cursor := ⟨s, 0, 1, 0, s.length⟩

/-- More turns than there are characters in the text. -/
def turns (c : Cursor) : Nat := c.size + 2

/-- The next character. -/
def peek (c : Cursor) : Char := c.rest.headD endMark

/-- The character `k` places ahead. -/
def peekAt (c : Cursor) (k : Nat) : Char := (c.rest.drop k).headD endMark

/-- The position after the next character.  Only a line feed and a carriage return begin a new line,
and a carriage return before a line feed does not; a byte order mark takes no column. -/
def step (c : Cursor) : Cursor :=
  match c.rest with
  | [] => c
  | ch :: rest =>
    let next := { c with rest, index := c.index + 1 }
    if ch == '\n' || (ch == '\r' && rest.head? != some '\n') then
      { next with line := c.line + 1, column := 0 }
    else if ch == '\ufeff' then next
    else { next with column := c.column + 1 }

/-- The position some characters ahead. -/
def skip : Nat → Cursor → Cursor
  | 0, c => c
  | n + 1, c => skip n c.step

/-- The position after the characters that satisfy `p`. -/
def skipWhile (p : Char → Bool) (c : Cursor) : Cursor :=
  skip (c.rest.takeWhile p).length c

/-- The characters that satisfy `p`, and the position after them. -/
def takeWhile (p : Char → Bool) (c : Cursor) : List Char × Cursor :=
  (c.rest.takeWhile p, c.skipWhile p)

/-- A break read as one character: a line feed, unless it is a separator of its own kind. -/
def lineBreak? (c : Cursor) : Option (Char × Cursor) :=
  match c.rest with
  | '\r' :: '\n' :: _ => some ('\n', skip 2 c)
  | ch :: _ =>
    if ch == '\n' || ch == '\r' || ch == '\x85' then some ('\n', c.step)
    else if isBreak ch then some (ch, c.step)
    else none
  | [] => none

/-- The position after a break, if there is one. -/
def skipBreak (c : Cursor) : Cursor :=
  (c.lineBreak?.map Prod.snd).getD c

/-- The text begins with three such characters and a word ends there. -/
def atTriple (ch : Char) (c : Cursor) : Bool :=
  c.rest.take 3 == [ch, ch, ch] && isWordEnd (c.peekAt 3)

/-- A line that begins or ends a document. -/
def atSeparator (c : Cursor) : Bool := atTriple '-' c || atTriple '.' c

end Cursor

end StylesheetTrace.Yaml
