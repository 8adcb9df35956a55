import StylesheetTrace.Issue
import StylesheetTrace.Text.Blank
import StylesheetTrace.Text.Lines
import StylesheetTrace.Text.Number
import StylesheetTrace.Text.Scan

/-!
# Splitting the raw output

The output of an instrumented stylesheet is split into the clean output and the trace entries that
its markers stand for.  Markers are removed from every line, and a marker that the end of the output
cuts off is removed from the last line.  A line that holds nothing but markers and blanks vanishes;
the entries of a line count from the next line that is kept, and are dropped when there is none.
-/

namespace StylesheetTrace.Output

open StylesheetTrace.Text

/-- The beginning of a marker. -/
def markerStart (sentinel : List Char) : List Char :=
  "<!--".toList ++ sentinel ++ ['|']

/-- The end of a comment. -/
def commentEnd : List Char := "-->".toList

/-- A marker whose fields can be read: the file, the digits of the line and the element. -/
def marker? (sentinel : List Char) : Reader (List Char × List Char × List Char) := fun s => do
  let s ← after? (markerStart sentinel) s
  let (file, s) ← cut? ['|'] s
  let digits := s.takeWhile isDigit
  let s ← after? ['|'] (s.dropWhile isDigit)
  let (element, s) ← if digits.isEmpty then none else cut? commentEnd s
  some ((file, digits, element), s)

/-- A comment that begins like a marker. -/
def markerComment? (sentinel : List Char) : Reader Unit := fun s => do
  let s ← after? (markerStart sentinel) s
  let s ← afterFirst? commentEnd s
  some ((), s)

/-- A comment that begins like a marker and is not closed: it takes the rest of the text. -/
def danglingMarker? (sentinel : List Char) : Reader Unit := fun s => do
  let s ← after? (markerStart sentinel) s
  if occurs commentEnd s then none else some ((), [])

/-- The place in the stylesheet that the fields of a marker name: there is no line 0. -/
def originOf? (fields : List Char × List Char × List Char) : Except TooLong (Option Origin) :=
  (readDigits fields.2.1).map fun n =>
    if n < 1 then none else some ⟨String.ofList fields.1, n, String.ofList fields.2.2⟩

/-- What a raw line yields. -/
structure Part where
  /-- The places named by its markers. -/
  origins : List Origin
  /-- What is kept of the line, if it is kept. -/
  kept : Option String
  deriving Repr, DecidableEq

/-- The line without its markers; on the last line also without a marker that is cut off. -/
def cleaned (sentinel : List Char) (isLast : Bool) (line : List Char) : List Char :=
  let closed := erase (markerComment? sentinel) line
  if isLast then erase (danglingMarker? sentinel) closed else closed

/-- What a raw line yields. -/
def partOf (sentinel : List Char) (isLast : Bool) (line : List Char) : Except TooLong Part := do
  let origins ← (collect (marker? sentinel) line).mapM originOf?
  let clean := cleaned sentinel isLast line
  let kept := if clean != line && clean.all isBlank then none else some (String.ofList clean)
  pure ⟨origins.filterMap id, kept⟩

/-- What the raw lines yield, each in turn. -/
def partsOf (sentinel : List Char) (lines : List (List Char)) : Except TooLong (List Part) := do
  let firsts ← lines.dropLast.mapM (partOf sentinel false)
  let lasts ← lines.getLast?.toList.mapM (partOf sentinel true)
  pure (firsts ++ lasts)

/-- The entries of the parts, each counted from the line after those kept before its own. -/
def numbered (parts : List Part) : List TraceEntry :=
  (parts.foldl
    (fun (acc : Nat × List TraceEntry) p =>
      (acc.1 + (if p.kept.isSome then 1 else 0),
        (p.origins.map fun o => ⟨acc.1 + 1, o⟩).reverse ++ acc.2))
    (0, [])).2.reverse

/-- The clean output of a run and the trace entries that its markers stand for. -/
structure Split where
  /-- The lines of the clean output. -/
  kept : List String
  /-- The trace entries, in the order of their markers. -/
  entries : List TraceEntry
  deriving Repr, DecidableEq

namespace Split

/-- The text of the clean output. -/
def text (s : Split) : String :=
  joinLines s.kept

/-- The lines of the clean output: an empty output has one empty line. -/
def lines (s : Split) : List String :=
  if s.kept.isEmpty then [""] else s.kept

end Split

/-- The split of a raw output into its clean output and its trace entries. -/
def split (sentinel raw : String) : Except TooLong Split :=
  (partsOf sentinel.toList (Text.lines raw.toList)).map fun parts =>
    let kept := parts.filterMap Part.kept
    ⟨kept, (numbered parts).filter fun e => e.outputLine ≤ kept.length⟩

end StylesheetTrace.Output
