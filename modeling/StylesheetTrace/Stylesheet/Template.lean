import StylesheetTrace.Stylesheet.Instruction
import StylesheetTrace.Text.Lines

/-!
# The templates of a stylesheet

A template with a match pattern is reported with the lines of its start and end tags and the
elements that the lines between them produce.
-/

namespace StylesheetTrace.Stylesheet

open StylesheetTrace.Text StylesheetTrace.Markup

/-- A template. -/
structure Template where
  /-- Its match pattern. -/
  pattern : String
  /-- The line of its start tag, counted from 1. -/
  line : Nat
  /-- The line of its end tag, counted from 1. -/
  endLine : Nat
  /-- The local names of the elements that its body produces. -/
  produced : List String
  deriving Repr, DecidableEq

/-- The prefixes of the elements of business documents. -/
def documentPrefixes : List String := ["cac", "cbc", "ubl", "ext"]

/-- A name of ASCII letters and digits that begins with a letter. -/
def plainName? : Reader (List Char) :=
  word? Char.isAlpha Char.isAlphanum

/-- The text after a document prefix and its colon. -/
def afterDocumentPrefix? (s : List Char) : Option (List Char) :=
  documentPrefixes.findSome? fun p => after? (p.toList ++ [':']) s

/-- A tag that opens an element of a business document. -/
def documentElement? : Reader (List Char)
  | '<' :: s => (afterDocumentPrefix? s).bind plainName?
  | _ => none

/-- A name between double quotes. -/
def quotedName? (s : List Char) : Option (List Char × List Char) := do
  let (name, rest) ← plainName? s
  let rest ← after? ['"'] rest
  some (name, rest)

/-- An instruction that creates an element whose name is written out. -/
def elementInstruction? (xsl : List Char) : Reader (List Char)
  | '<' :: s => do
    let s ← after? (xsl ++ ":element".toList) s
    let s ← if (s.takeWhile isBlank).isEmpty then none else some (s.dropWhile isBlank)
    let s ← after? "name=\"".toList s
    ((afterDocumentPrefix? s).bind quotedName?).or (quotedName? s)
  | _ => none

/-- The elements that the lines of a body produce: the literal ones first. -/
def producedElements (xsl : List Char) (body : List (List Char)) : List String :=
  let text := ['\n'].intercalate body
  ((collect documentElement? text ++ collect (elementInstruction? xsl) text).map
    String.ofList).eraseDups

/-- The match pattern that is read at the head of `s`, and whether the tag closes its element. -/
def patternAt? (s : List Char) : Option (List Char × Bool) := do
  let s ← after? "match=\"".toList s
  let (pattern, rest) ← cut? ['"'] s
  let (inside, _) ← tagInside? rest
  some (pattern, endsWithSlash inside)

/-- The last match pattern that begins before the first `>`, at a word boundary; `afterWord` tells
whether a word character stands before the text, and `found` is the pattern found so far. -/
def lastPattern? : Bool → List Char → Option (List Char × Bool) → Option (List Char × Bool)
  | _, [], found => found
  | afterWord, c :: s, found =>
    if c == '>' then found
    else
      lastPattern? (isWord c) s
        (if afterWord then found else (patternAt? (c :: s)).or found)

/-- The match pattern of the template that a line opens, if its tag begins and ends there and does
not close the template at once. -/
def openedPattern? (xsl line : List Char) : Option (List Char) :=
  (after? ('<' :: xsl ++ ":template".toList) (line.dropWhile isBlank)).bind fun s =>
    if endsWord s then
      (lastPattern? true s none).bind fun (pattern, closed) => if closed then none else some pattern
    else none

/-- A template whose end tag has not been read. -/
structure OpenTemplate where
  /-- Its match pattern. -/
  pattern : List Char
  /-- The line of its start tag, counted from 1. -/
  line : Nat
  /-- How many templates are open. -/
  depth : Nat
  /-- The lines of its body, in reverse. -/
  body : List (List Char)
  deriving Repr, DecidableEq

/-- Reads line `n` while a template is open: the template goes on, or it is complete. -/
def continueTemplate (xsl : List Char) (t : OpenTemplate) (n : Nat) (line : List Char) :
    OpenTemplate ⊕ Template :=
  let depth := t.depth + if hasForm (instructionTag? xsl ["template"] false) line then 1 else 0
  if hasForm (instructionClosing? xsl ["template"]) line then
    if depth = 1 then
      .inr ⟨String.ofList t.pattern, t.line, n, producedElements xsl t.body.reverse⟩
    else .inl { t with depth := depth - 1, body := line :: t.body }
  else .inl { t with depth, body := line :: t.body }

/-- Reads line `n`, with the template that is open and the complete ones in reverse. -/
def templateStep (xsl : List Char) (state : Option OpenTemplate × List Template)
    (numbered : List Char × Nat) : Option OpenTemplate × List Template :=
  match state.1 with
  | none =>
    ((openedPattern? xsl numbered.1).map fun pattern => ⟨pattern, numbered.2, 1, []⟩, state.2)
  | some t =>
    match continueTemplate xsl t numbered.2 numbered.1 with
    | .inl t => (some t, state.2)
    | .inr done => (none, done :: state.2)

/-- The templates with a match pattern, in the order of the stylesheet. -/
def templates (content : String) : List Template :=
  let s := content.toList
  (((lines s).zipIdx 1).foldl (templateStep (instructionPrefix s)) (none, [])).2.reverse

end StylesheetTrace.Stylesheet
