import StylesheetTrace.Issue
import StylesheetTrace.Text.Caseless
import StylesheetTrace.Text.Blank
import StylesheetTrace.Text.Lines
import StylesheetTrace.Text.Number
import StylesheetTrace.Text.Scan

/-!
# Logs of schema validation

A schema validator logs one finding a line, `file.xml:12: element Foo: Schemas validity error :
message`.  A line with a line number and one of the two phrases of the validator yields the message
behind the phrase; any other line with a line number that mentions an error yields what follows the
number.  The closing summary of the log is no finding.
-/

namespace StylesheetTrace.Report

open StylesheetTrace.Text

/-- A line number between colons and the text after it, blanks skipped. -/
def lineNumber? : List Char → Option (List Char × List Char)
  | ':' :: s =>
    match s.dropWhile isDigit with
    | ':' :: rest =>
      if (s.takeWhile isDigit).isEmpty then none
      else some (s.takeWhile isDigit, rest.dropWhile isBlank)
    | _ => none
  | _ => none

/-- The phrases that announce a finding. -/
def phrases : List String := ["Schemas validity error", "parser error"]

/-- The text after a phrase and its colon. -/
def afterPhrase? : Reader Unit := fun s =>
  phrases.findSome? fun p => do
    let s ← after? p.toList s
    let s ← after? [':'] (s.dropWhile isBlank)
    some ((), s.dropWhile isBlank)

/-- A line number, and the text behind the phrase that follows it. -/
def announced? : Reader (List Char × List Char) := fun s => do
  let (digits, rest) ← lineNumber? s
  let (_, _, message) ← leftmost? afterPhrase? rest
  some ((digits, message), message)

/-- The word `error` in any case. -/
def errorWord? : Reader Unit := fun s =>
  (afterCaseless? "error".toList s).map fun rest => ((), rest)

/-- A line number, and the text behind it if that mentions an error. -/
def mentioned? : Reader (List Char × List Char) := fun s => do
  let (digits, rest) ← lineNumber? s
  if hasForm errorWord? rest then some ((digits, rest), rest) else none

/-- The line number and the message of a line of the log. -/
def finding? (line : List Char) : Option (List Char × List Char) :=
  ((firstForm? announced? line).or (firstForm? mentioned? line)).map fun (digits, message) =>
    (digits, strip message)

/-- The summary at the end of a log. -/
def summaryPhrase : String := "fails to validate"

/-- The issue that a line of the log states, if it states one. -/
def logIssue? (line : List Char) : Except TooLong (Option Issue) :=
  match finding? line with
  | none => .ok none
  | some (digits, message) =>
    (readDigits digits).map fun n =>
      if occurs summaryPhrase.toList message then none
      else some
        { line := max n 1
          column := 0
          message := String.ofList message
          severity := .error
          ruleId := none
          source := .xsd }

/-- The issues that the log of a schema validator states. -/
def logIssues (log : String) : Except TooLong (List Issue) :=
  ((anyLines log.toList).mapM logIssue?).map (List.filterMap id)

end StylesheetTrace.Report
