import StylesheetTrace.Yaml.Token

/-!
# Plain scalars

A plain scalar is written without quotes.  It goes on over line breaks, which are folded to one
space or, where empty lines follow, to one line feed for each of them.
-/

namespace StylesheetTrace.Yaml

/-- Where a plain scalar stands. -/
structure PlainContext where
  /-- It stands inside a flow collection. -/
  flow : Bool
  /-- It is read by the rules of YAML 1.1. -/
  old : Bool
  /-- The least column on which a further line of it may begin. -/
  indent : Int
  deriving Repr, DecidableEq

namespace PlainContext

/-- The character ends a run of a plain scalar, `next` being the character after it. -/
def stops (x : PlainContext) (c next : Char) : Bool :=
  if c == ':' && !isWordEnd next then false
  else if c == '?' && !x.old then false
  else isWordEnd c || (!x.flow && c == ':')
    || (x.flow && [',', ':', '?', '[', ']', '\x7b', '\x7d'].contains c)

/-- How many characters the run at the head of a text has, counted on from `n`. -/
def runLength (x : PlainContext) : List Char → Nat → Nat
  | [], n => n
  | c :: rest, n => if x.stops c (rest.headD endMark) then n else x.runLength rest (n + 1)

end PlainContext

/-- What follows a run of a plain scalar. -/
structure PlainSpace where
  /-- The characters that it stands for, if the scalar may go on. -/
  text : List Char
  /-- A line was ended. -/
  ended : Bool
  /-- The position after it. -/
  cursor : Cursor
  deriving Repr, DecidableEq

/-- The breaks of empty lines, with those read so far in reverse; none where a document ends. -/
def plainBreaks : Nat → Cursor → List Char → Option (List Char) × Cursor
  | 0, c, found => (some found.reverse, c)
  | n + 1, c, found =>
    if c.peek == ' ' then plainBreaks n c.step found
    else
      match c.lineBreak? with
      | none => (some found.reverse, c)
      | some (b, c) => if c.atSeparator then (none, c) else plainBreaks n c (b :: found)

/-- The blanks and breaks behind a run. -/
def plainSpace (c : Cursor) : PlainSpace :=
  let (blanks, c) := c.takeWhile (· == ' ')
  match c.lineBreak? with
  | none => ⟨blanks, false, c⟩
  | some (b, c) =>
    if c.atSeparator then ⟨[], true, c⟩
    else
      match plainBreaks c.turns c [] with
      | (none, c) => ⟨[], true, c⟩
      | (some breaks, c) =>
        let text := if b != '\n' then b :: breaks else if breaks.isEmpty then [' '] else breaks
        ⟨text, true, c⟩

/-- A plain scalar from a run of it on, behind what stands between the runs; `found` is what was
read so far, in reverse.  Every turn takes a character, so that a bound of the text's length
suffices. -/
def plainFrom (x : PlainContext) : Nat → PlainSpace → List Char → List Char × PlainSpace
  | 0, s, found => (found.reverse, s)
  | n + 1, s, found =>
    let c := s.cursor
    let size := if c.peek == '#' then 0 else x.runLength c.rest 0
    if size = 0 then (found.reverse, s)
    else
      let found := (c.rest.take size).reverse ++ (s.text.reverse ++ found)
      let s := plainSpace (Cursor.skip size c)
      if s.text.isEmpty || (!x.flow && decide ((s.cursor.column : Int) < x.indent)) then
        (found.reverse, s)
      else plainFrom x n s found

/-- A plain scalar and what stands behind it. -/
def plainScalar (x : PlainContext) (c : Cursor) : List Char × PlainSpace :=
  plainFrom x c.turns ⟨[], false, c⟩ []

/-- The empty lines behind a plain scalar, which count as a comment at the scalar. -/
def PlainSpace.comments (s : PlainSpace) (c : Cursor) : Option Comments :=
  if s.text.head? == some '\n' then
    some (Comments.withBehind none ⟨s.text ++ ['\n'], c.line, c.column⟩)
  else none

end StylesheetTrace.Yaml
