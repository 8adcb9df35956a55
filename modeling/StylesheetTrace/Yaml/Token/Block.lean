import StylesheetTrace.Yaml.Token.Gap
import StylesheetTrace.Yaml.Token.Property

/-!
# Block scalars

A literal or folded scalar holds the lines that are indented further than what it belongs to.  Its
head may say how far, and what becomes of the breaks at its end.
-/

namespace StylesheetTrace.Yaml

/-- The head of a block scalar. -/
structure BlockHead where
  /-- The breaks at its end are kept or dropped, where one of these is asked for. -/
  keep : Option Bool
  /-- How much further its lines are indented, where that is said. -/
  indent : Option Nat
  /-- The remark on its line. -/
  remark : Option (List Char)
  deriving Repr, DecidableEq

/-- The sign that says what becomes of the breaks at the end. -/
def chomping (c : Cursor) : Option Bool × Cursor :=
  if c.peek == '+' then (some true, c.step)
  else if c.peek == '-' then (some false, c.step)
  else (none, c)

/-- The digit that says how far lines are indented. -/
def indentation (c : Cursor) : Outcome (Option Nat × Cursor) :=
  if c.peek == '0' then c.fail .zeroIndent
  else if c.peek.isDigit then .ok (some (c.peek.toNat - 48), c.step)
  else .ok (none, c)

/-- The head of a block scalar, with the rest of its line; the position is behind its indicator. -/
def blockHead (c : Cursor) : Outcome (BlockHead × Cursor) := do
  let (keep, c) := chomping c
  let (indent, c) ← indentation c
  let (keep, c) := if keep.isNone && indent.isSome then chomping c else (keep, c)
  if !endsProperty c.peek then c.refuse .blockIndicator
  else
    let (remark, c) ← commentLine c
    pure (⟨keep, indent, remark⟩, c)

/-- Breaks that were read. -/
structure BlockBreaks where
  /-- What they stand for. -/
  text : List Char
  /-- The position behind the last of them. -/
  mark : Cursor
  /-- The position behind the blanks that follow. -/
  cursor : Cursor
  deriving Repr, DecidableEq

/-- What is known of the blanks in front of the first line. -/
structure LeadingBlanks where
  /-- The column of the first break. -/
  first : Option Nat
  /-- The greatest column that blanks reach. -/
  width : Nat
  deriving Repr, DecidableEq

/-- The breaks in front of the first line, behind those in `b`, which are in reverse. -/
def leadingBreaks : Nat → BlockBreaks → LeadingBlanks → BlockBreaks × LeadingBlanks
  | 0, b, l => ({ b with text := b.text.reverse }, l)
  | n + 1, b, l =>
    let c := b.cursor
    if c.peek == ' ' then
      leadingBreaks n { b with cursor := c.step } { l with width := max l.width c.step.column }
    else
      match c.lineBreak? with
      | none => ({ b with text := b.text.reverse }, l)
      | some (ch, d) =>
        leadingBreaks n ⟨ch :: b.text, d, d⟩ { l with first := l.first.or (some c.column) }

/-- A further line is indented more than the first one, which has only blanks. -/
def LeadingBlanks.isUneven (l : LeadingBlanks) : Bool :=
  l.first.any fun n => decide (0 < n ∧ n < l.width)

/-- The position after the blanks up to a column. -/
def skipIndent (indent : Nat) : Nat → Cursor → Cursor
  | 0, c => c
  | n + 1, c => if c.column < indent && c.peek == ' ' then skipIndent indent n c.step else c

/-- The breaks of empty lines, behind those in `b`, which are in reverse. -/
def blockBreaksFrom (indent : Nat) : Nat → BlockBreaks → BlockBreaks
  | 0, b => { b with text := b.text.reverse }
  | n + 1, b =>
    let c := skipIndent indent indent b.cursor
    match c.lineBreak? with
    | none => { b with text := b.text.reverse, cursor := c }
    | some (ch, c) => blockBreaksFrom indent n ⟨ch :: b.text, c, c⟩

/-- The breaks of empty lines and the blanks in front of the next line. -/
def blockBreaks (indent : Nat) (c : Cursor) : BlockBreaks :=
  blockBreaksFrom indent c.turns ⟨[], c, c⟩

/-- How the lines of a block scalar are read. -/
structure BlockContext where
  /-- The column of the lines. -/
  indent : Nat
  /-- Breaks are folded. -/
  folded : Bool
  /-- A separator of documents ends the scalar. -/
  atTop : Bool
  deriving Repr, DecidableEq

/-- The lines of a block scalar. -/
structure BlockLines where
  /-- What they stand for, in reverse. -/
  text : List Char
  /-- The break after the last line. -/
  ending : List Char
  /-- The breaks of the empty lines behind it. -/
  breaks : BlockBreaks
  deriving Repr, DecidableEq

/-- Marks a folded break in the text of a scalar. -/
def foldMark : Char := '\x07'

/-- A further line stands at the position. -/
def BlockContext.hasLine (x : BlockContext) (c : Cursor) : Bool :=
  c.column == x.indent && !c.rest.isEmpty

/-- What the break between two lines stands for: a folded break is a space, unless one of the lines
begins with a blank or empty lines stand between them.  A break that could be folded is marked. -/
def BlockContext.joint (x : BlockContext) (startsBlank : Bool) (l : BlockLines) : List Char :=
  if x.folded && l.ending == ['\n'] then
    if startsBlank || isSpaceOrTab l.breaks.cursor.peek then foldMark :: l.ending
    else if l.breaks.text.isEmpty then [foldMark, ' ']
    else [foldMark]
  else l.ending

/-- The lines of a block scalar from the next one on.  Each takes a character, so that a bound of
the text's length suffices. -/
def blockLines (x : BlockContext) : Nat → BlockLines → BlockLines
  | 0, l => l
  | n + 1, l =>
    let start := l.breaks.cursor
    if !x.hasLine start then l
    else
      let (line, c) := start.takeWhile (!isEnd ·)
      let (ending, c) := match c.lineBreak? with
        | some (b, c) => ([b], c)
        | none => ([], c)
      let breaks := blockBreaks x.indent c
      let c := breaks.cursor
      let next : BlockLines := ⟨line.reverse ++ (l.breaks.text.reverse ++ l.text), ending, breaks⟩
      if (x.atTop && c.column == 0 && c.atSeparator) || !x.hasLine c then next
      else
        blockLines x n
          { next with text := (x.joint (isSpaceOrTab start.peek) next).reverse ++ next.text }

/-- A block scalar that was read. -/
structure BlockScalar where
  /-- Its text. -/
  text : List Char
  /-- Its style. -/
  style : Style
  /-- Its comments. -/
  comments : Option Comments
  /-- The position after it. -/
  cursor : Cursor
  deriving Repr, DecidableEq

/-- The comments of a block scalar: the remark in its head, and behind it the empty lines that are
dropped, with the comments that follow them.  The position after them all is given, too. -/
def blockComments (head : BlockHead) (breaks : BlockBreaks) : Option Comments × Cursor :=
  let comments := head.remark.map fun r => ⟨none, some [.head r], none⟩
  if head.keep == some true || breaks.text.isEmpty then (comments, breaks.cursor)
  else
    let (text, c) := Gap.commentsFrom breaks.cursor.turns breaks.cursor breaks.text.reverse
    (some (Comments.withBehind comments ⟨text, breaks.mark.line, breaks.mark.column⟩), c)

/-- A block scalar.  The position is at its indicator, and lines have to stand to the right of the
column `parent`, which is -1 at the top. -/
def blockScalar (parent : Int) (c : Cursor) : Outcome BlockScalar := do
  let style := if c.peek == '>' then Style.folded else .literal
  let (head, c) ← blockHead c.step
  let least := (parent + 1).toNat
  let (indent, breaks, blanks) := match head.indent with
    | none =>
      let (breaks, blanks) := leadingBreaks c.turns ⟨[], c, c⟩ ⟨none, 0⟩
      (max least blanks.width, breaks, blanks)
    | some n =>
      let indent := max least 1 + n - 1
      (indent, blockBreaks indent c, ⟨none, 0⟩)
  if blanks.isUneven then throw .unevenBlock
  let atTop := least = 0 && head.indent.isNone
  let l := blockLines ⟨indent, style == .folded, atTop⟩ c.turns ⟨[], [], breaks⟩
  let ending := if head.keep == some false then [] else l.ending
  let text := l.text.reverse ++ ending ++ if head.keep == some true then l.breaks.text else []
  let (comments, after) := blockComments head l.breaks
  pure ⟨text, style, comments, after⟩

end StylesheetTrace.Yaml
