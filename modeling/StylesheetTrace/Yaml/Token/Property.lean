import StylesheetTrace.Text.Hex
import StylesheetTrace.Text.Number
import StylesheetTrace.Text.Utf8
import StylesheetTrace.Yaml.Token

/-!
# Anchors, aliases, tags and directives

The parts of a YAML text that say something about a node or about a document.
-/

namespace StylesheetTrace.Yaml

open StylesheetTrace.Text

/-- A character that is no blank and no control character. -/
def isVisible (c : Char) : Bool :=
  let n := c.toNat
  decide ((0x21 ≤ n ∧ n ≤ 0x7e) ∨ (0xa0 ≤ n ∧ n ≤ 0xd7ff) ∨ (0xe000 ≤ n ∧ n ≤ 0xfffd ∧ n ≠ 0xfeff) ∨
    0x10000 ≤ n)

/-- An indicator of a flow collection. -/
def isFlowIndicator (c : Char) : Bool := [',', '[', ']', '\x7b', '\x7d'].contains c

/-- A character of the name of an anchor. -/
def isAnchorChar (c : Char) : Bool := isVisible c && !isFlowIndicator c

/-- A character that may follow the name of an anchor. -/
def endsAnchor (c : Char) : Bool :=
  isEnd c || isFlowIndicator c || [' ', '\t', '?', ':', '%', '@', '\x60'].contains c

/-- The name of an anchor, behind its indicator. -/
def anchorName (c : Cursor) : Outcome (String × Cursor) :=
  let (name, c) := c.step.takeWhile isAnchorChar
  if name.isEmpty || !endsAnchor c.peek then c.refuse .name
  else .ok (String.ofList name, c)

/-- The end of a word of a directive or of a tag. -/
def endsProperty (c : Char) : Bool := c == ' ' || isEnd c

/-- A character of a URI. -/
def isUriChar (old : Bool) (c : Char) : Bool :=
  c.isAlphanum || "-;/?:@&=+$,_.!~*'()[]%".toList.contains c || (!old && c == '#')

/-- The bytes that are written behind percent signs, with those read so far in reverse.  They must
be those of characters. -/
def uriBytes : Nat → Cursor → List Nat → Outcome (List Nat × Cursor)
  | 0, c, found => .ok (found.reverse, c)
  | n + 1, c, found =>
    if c.peek == '%' then
      let c := c.step
      match hexValue? c.peek, hexValue? (c.peekAt 1) with
      | some high, some low => uriBytes n (Cursor.skip 2 c) ((16 * high + low) :: found)
      | none, _ => c.refuse .uriEscape
      | some _, none => c.fail (.expected .uriEscape (c.peekAt 1))
    else .ok (found.reverse, c)

/-- Bytes as they are written behind percent signs. -/
def percentText (bytes : List Nat) : List Char :=
  bytes.flatMap fun b => '%' :: (hexDigits 2 b).map Char.toUpper

/-- A URI, with what was read so far in reverse.  Bytes behind percent signs stay as they are
written. -/
def uriFrom (old : Bool) : Nat → Cursor → List Char → Outcome (List Char × Cursor)
  | 0, c, found => .ok (found.reverse, c)
  | n + 1, c, found =>
    if c.peek == '%' then
      match uriBytes c.turns c [] with
      | .error e => .error e
      | .ok (bytes, d) =>
        match Utf8.decode bytes with
        | .error e => c.fail (.uriEncoding e)
        | .ok _ => uriFrom old n d ((percentText bytes).reverse ++ found)
    else if c.peek != endMark && isUriChar old c.peek then uriFrom old n c.step (c.peek :: found)
    else .ok (found.reverse, c)

/-- A URI of one character at least. -/
def uri (old : Bool) (c : Cursor) : Outcome (String × Cursor) :=
  match uriFrom old c.turns c [] with
  | .error e => .error e
  | .ok (cs, d) => if d.index = c.index then d.refuse .uri else .ok (String.ofList cs, d)

/-- A URI with a character for every byte behind a percent sign. -/
def percentDecoded : List Char → List Char
  | '%' :: a :: b :: rest => Char.ofNat (hexNumber [a, b]) :: percentDecoded rest
  | c :: rest => c :: percentDecoded rest
  | [] => []

/-- A letter, a digit, a hyphen or an underscore. -/
def isHandleChar (c : Char) : Bool := c.isAlphanum || c == '-' || c == '_'

/-- The handle of a tag: an exclamation mark, or two with a name between them. -/
def tagHandle (c : Cursor) : Outcome (String × Cursor) :=
  if c.peek != '!' then c.refuse .tagHandle
  else if c.peekAt 1 == ' ' then .ok ("!", c.step)
  else
    let (name, d) := c.step.takeWhile isHandleChar
    if d.peek != '!' then d.refuse .tagHandle
    else .ok (String.ofList ('!' :: name ++ ['!']), d.step)

/-- A second exclamation mark follows before the word ends. -/
def hasHandle (c : Cursor) : Bool :=
  (c.step.rest.find? fun ch => ch == '!' || endsProperty ch) == some '!'

/-- A tag: in angle brackets, as one or two exclamation marks alone, or with a handle.  Behind two
exclamation marks a handle with a name counts only from the second one on. -/
def tagText (old : Bool) (c : Cursor) : Outcome (TagText × Cursor) := do
  let (short, c) := if c.peekAt 1 == '!' then ("!!", c.step) else ("!", c)
  let (t, d) ← (do
    if c.peekAt 1 == '<' then
      let (suffix, d) ← uri old (Cursor.skip 2 c)
      if d.peek != '>' then d.refuse .tagClosing
      else pure (⟨none, suffix⟩, d.step)
    else if isWordEnd (c.peekAt 1) then pure (⟨none, short⟩, c.step)
    else
      let (handle, d) ← if hasHandle c then tagHandle c else pure (short, c.step)
      let (suffix, d) ← uri old d
      pure (⟨some handle, suffix⟩, d) : Outcome (TagText × Cursor))
  if endsProperty d.peek then pure (t, d) else d.refuse .space

/-- A character of the name of a directive. -/
def isDirectiveChar (c : Char) : Bool := isHandleChar c || c == ':' || c == '.'

/-- Blanks are passed over. -/
def skipSpaces (c : Cursor) : Cursor := c.skipWhile (· == ' ')

/-- The rest of a line that may hold nothing but a comment, which is read with the blanks in front
of it. -/
def commentLine (c : Cursor) : Outcome (Option (List Char) × Cursor) :=
  let (blanks, c) := c.takeWhile (· == ' ')
  let (comment, c) :=
    if c.peek == '#' then
      let (text, c) := c.takeWhile (!isEnd ·)
      (some (blanks ++ text), c)
    else (none, c)
  if isEnd c.peek then .ok (comment, c.skipBreak) else c.refuse .lineEnd

/-- A number of a version. -/
def versionNumber (c : Cursor) : Outcome (Nat × Cursor) :=
  let (ds, d) := c.takeWhile Char.isDigit
  if ds.isEmpty then c.refuse .digit
  else Outcome.ofBreakdown (((readDigits ds).mapError .tooLong).map fun n => (n, d))

/-- The two numbers of a version. -/
def version (c : Cursor) : Outcome (Directive × Cursor) := do
  let (major, c) ← versionNumber (skipSpaces c)
  if c.peek != '.' then c.refuse .versionPoint
  else
    let (minor, c) ← versionNumber c.step
    if endsProperty c.peek then pure (.version major minor, c) else c.refuse .versionPoint

/-- A handle and what it stands for. -/
def handleMeaning (old : Bool) (c : Cursor) : Outcome (Directive × Cursor) := do
  let (handle, c) ← tagHandle (skipSpaces c)
  if c.peek != ' ' then c.refuse .space
  else
    let (start, c) ← uri old (skipSpaces c)
    if endsProperty c.peek then pure (.handle handle start, c) else c.refuse .space

/-- A directive, the rest of its line included; of an unknown one only the name is looked at. -/
def directive (old : Bool) (c : Cursor) : Outcome (Directive × Cursor) := do
  let (name, c) := c.step.takeWhile isDirectiveChar
  if name.isEmpty || !endsProperty c.peek then c.refuse .name
  else
    let (d, c) ←
      if name == "YAML".toList then version c
      else if name == "TAG".toList then handleMeaning old c
      else (pure (Directive.other, c.skipWhile (!isEnd ·)) : Outcome (Directive × Cursor))
    let (_, c) ← commentLine c
    pure (d, c)

end StylesheetTrace.Yaml
