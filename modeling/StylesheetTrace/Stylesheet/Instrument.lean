import StylesheetTrace.Entity.Reference
import StylesheetTrace.Marker
import StylesheetTrace.Stylesheet.Instruction
import StylesheetTrace.Text.Lines

/-!
# Instrumenting a stylesheet

An instrumented stylesheet writes a trace marker before each literal element of its output.  The
stylesheet is read line by line: a line is marked when it begins with a tag that opens a literal
element and stands inside a template or a function, outside comments.  The scan decides which lines
are marked without looking at what the markers say.
-/

namespace StylesheetTrace.Stylesheet

open StylesheetTrace.Text StylesheetTrace.Markup

/-- The instructions whose content is output. -/
def bodyNames : List String := ["template", "function"]

/-- A literal element that a line opens. -/
structure Literal where
  /-- The blanks before it. -/
  indent : List Char
  /-- Its qualified name. -/
  name : List Char
  deriving Repr, DecidableEq

/-- A character of the name of a literal element. -/
def isLiteralChar (c : Char) : Bool :=
  isWord c || c == '.' || c == '-'

/-- A part of a qualified name. -/
def literalPart? : Reader (List Char) :=
  word? isNameStart isLiteralChar

/-- A name, with a prefix if a second name follows behind a colon. -/
def literalName? : Reader (List Char) := fun s => do
  let (first, rest) ← literalPart? s
  match rest with
  | ':' :: t =>
    match literalPart? t with
    | some (second, rest') => some (first ++ ':' :: second, rest')
    | none => some (first, rest)
  | _ => some (first, rest)

/-- The literal element that a line opens: its name is not one of an instruction, and the name ends
before a blank, `/`, `>` or the end of the line. -/
def literal? (xsl line : List Char) : Option Literal :=
  match line.dropWhile isBlank with
  | '<' :: s =>
    if (after? (xsl ++ [':']) s).isSome then none
    else (literalName? s).bind fun (name, rest) =>
      if endsName rest then some ⟨line.takeWhile isBlank, name⟩ else none
  | _ => none

/-- Where the scan of a stylesheet stands. -/
structure ScanState where
  /-- How many bodies are open. -/
  depth : Nat
  /-- A comment is open. -/
  inComment : Bool
  deriving Repr, DecidableEq

/-- The line leaves a comment open: the last one that it begins is not closed on it. -/
def leavesComment (line : List Char) : Bool :=
  match lastTail? "<!--".toList line with
  | some tail => !occurs "-->".toList tail
  | none => false

/-- The depth after a line that stands outside comments. -/
def depthAfter (xsl : List Char) (depth : Nat) (line : List Char) : Nat :=
  let opened := hasForm (instructionOpening? xsl bodyNames) line &&
    !hasForm (instructionTag? xsl bodyNames true) line
  let closed := hasForm (instructionClosing? xsl bodyNames) line
  (depth + if opened then 1 else 0) - if closed then 1 else 0

/-- The scan of one line: the literal element before which a marker goes, and the state after it. -/
def scanLine (xsl : List Char) (state : ScanState) (line : List Char) :
    Option Literal × ScanState :=
  if state.inComment then (none, { state with inComment := !occurs "-->".toList line })
  else
    let depth := depthAfter xsl state.depth line
    (if depth = 0 then none else literal? xsl line, ⟨depth, leavesComment line⟩)

/-- The scan of the lines: each with the literal element before which a marker goes. -/
def scanLines (xsl : List Char) (lines : List (List Char)) : List (List Char × Option Literal) :=
  (lines.foldl
    (fun (acc : ScanState × List (List Char × Option Literal)) line =>
      let (mark, state) := scanLine xsl acc.1 line
      (state, (line, mark) :: acc.2))
    (⟨0, false⟩, [])).2.reverse

/-- The line that writes a marker with the text `text`. -/
def markerLine (xsl : List Char) (mark : Literal) (text : String) : List Char :=
  let tag := xsl ++ ":comment>".toList
  mark.indent ++ '<' :: tag ++ Entity.escape text.toList ++ '<' :: '/' :: tag

/-- The lines that stand for line `n` of the stylesheet. -/
def instrumentLine (xsl : List Char) (sentinel file : String) (n : Nat)
    (scanned : List Char × Option Literal) : Except Marker.EncodeError (List (List Char)) :=
  match scanned.2 with
  | none => .ok [scanned.1]
  | some mark =>
    (Marker.text sentinel file n (String.ofList mark.name)).map fun text =>
      [markerLine xsl mark text, scanned.1]

/-- The lines of the instrumented stylesheet. -/
def instrumentLines (sentinel file : String) (content : List Char) :
    Except Marker.EncodeError (List (List Char)) :=
  let xsl := instructionPrefix content
  let scanned := (scanLines xsl (lines content)).zipIdx 1
  (scanned.mapM fun (s, n) => instrumentLine xsl sentinel file n s).map List.flatten

/-- The instrumented stylesheet. -/
def instrument (sentinel file content : String) : Except Marker.EncodeError String :=
  (instrumentLines sentinel file content.toList).map fun ls =>
    joinLines (ls.map String.ofList)

end StylesheetTrace.Stylesheet
