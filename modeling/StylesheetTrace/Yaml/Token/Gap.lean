import StylesheetTrace.Text.Blank
import StylesheetTrace.Yaml.Token

/-!
# What stands between tokens

Blanks and line breaks separate tokens.  A comment reaches over the breaks that follow it; empty
lines count as a comment of their own.
-/

namespace StylesheetTrace.Yaml

open StylesheetTrace.Text

/-- What was passed over before a token. -/
structure Gap where
  /-- The comment that was met, if one was. -/
  comment : Option Comment
  /-- A line was ended. -/
  ended : Bool
  /-- The position after it all. -/
  cursor : Cursor
  deriving Repr, DecidableEq

namespace Gap

/-- A blank: outside flow collections a tabulator is none. -/
def isBlank (flow : Bool) (c : Char) : Bool := c == ' ' || (flow && c == '\t')

/-- Line breaks, and blanks among them if `blanks`, behind what was read so far in reverse.  Every
turn takes a character, so that a bound of the text's length suffices. -/
def breaksFrom (blanks : Bool) : Nat → Cursor → List Char → List Char × Cursor
  | 0, c, found => (found.reverse, c)
  | n + 1, c, found =>
    match c.lineBreak? with
    | some (b, c) => breaksFrom blanks n c (b :: found)
    | none =>
      if blanks && isSpaceOrTab c.peek then breaksFrom blanks n c.step (c.peek :: found)
      else (found.reverse, c)

/-- A comment up to the end of its line, which is written as a line feed where the text ends, and
the breaks behind it. -/
def lineComment (c : Cursor) : Comment × Cursor :=
  let (text, d) := c.takeWhile (!isEnd ·)
  let ending := if d.rest.isEmpty then '\n' else d.peek
  let (breaks, d) := breaksFrom false d.turns d.step []
  (⟨text ++ ending :: breaks, c.line, c.column⟩, d)

/-- Empty lines.  The blanks in front of a comment are left out. -/
def emptyLines (c : Cursor) : Comment × Cursor :=
  let (text, d) := breaksFrom true c.turns c []
  let text := if d.peek == '#' then dropEndWhile (· != '\n') text else text
  (⟨text, c.line, c.column⟩, d)

/-- The gap with a comment. -/
def ofComment (c : Comment × Cursor) : Gap := ⟨some c.1, true, c.2⟩

/-- The gap from a position on.  Every turn ends a line, so that a bound of the text's length
suffices. -/
def readFrom (flow : Bool) : Nat → Cursor → Bool → Gap
  | 0, c, ended => ⟨none, ended, c⟩
  | n + 1, c, ended =>
    let c := c.skipWhile (isBlank flow)
    if c.peek == '#' then ofComment (lineComment c)
    else
      match c.lineBreak? with
      | none => ⟨none, ended, c⟩
      | some (_, c) =>
        if c.peek == '\n' then ofComment (emptyLines c) else readFrom flow n c true

/-- The gap at a position, up to a token or to the end of one comment.  A byte order mark may begin
the text. -/
def read (flow : Bool) (c : Cursor) : Gap :=
  let c := if c.index = 0 && c.peek == '\ufeff' then c.step else c
  readFrom flow c.turns c false

/-- All comments and empty lines outside flow collections, each behind as many blanks as its column
says, with those read so far in reverse, and the position after them.  Every turn passes over one of
them, so that a bound of the text's length suffices. -/
def commentsFrom : Nat → Cursor → List Char → List Char × Cursor
  | 0, c, found => (found.reverse, c)
  | n + 1, c, found =>
    let g := read false c
    match g.comment with
    | none => (found.reverse, g.cursor)
    | some d =>
      commentsFrom n g.cursor (d.text.reverse ++ (List.replicate d.column ' ' ++ found))

end Gap

end StylesheetTrace.Yaml
