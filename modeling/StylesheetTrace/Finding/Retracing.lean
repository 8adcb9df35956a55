import StylesheetTrace.Finding.Mapping
import StylesheetTrace.Validation.Model

/-!
# Tracing issues again

An issue that is traced may already claim an origin, or parts of one.  What it claims does not
decide where it goes: its message, its rule and its line do.  It keeps its claims unless an entry is
found for it, whose origin then takes the place of all of them.
-/

namespace StylesheetTrace.Finding

open StylesheetTrace.Text StylesheetTrace.Validation

/-- Where an issue goes. -/
structure Landing where
  /-- The line on which the issue is. -/
  line : Nat
  /-- The entry whose origin it gets, if it gets one. -/
  entry : Option TraceEntry
  deriving Repr, DecidableEq

/-- Where an issue on a line goes, given the names of the elements that it is about. -/
def landing (entries : List TraceEntry) (lines names : List String) (line : Nat) : Landing :=
  match namedEntry? entries names with
  | some e => ⟨e.outputLine, some e⟩
  | none =>
    match namedLine? lines names with
    | some found => ⟨found, nearest? entries found⟩
    | none => ⟨line, if line ≤ degenerateLines then none else nearest? entries line⟩

/-- A traced issue, each part of its origin on its own. -/
def fieldsOf (t : TracedIssue) : TracedFields :=
  { issue := t.issue
    file := t.origin.map Origin.file
    line := t.origin.map fun o => o.line
    element := t.origin.map Origin.element }

/-- The issue put where it goes.  The origin of an entry replaces every part of the one claimed. -/
def landed (t : TracedFields) (place : Landing) : TracedFields :=
  match place.entry with
  | some e => fieldsOf ⟨{ t.issue with line := place.line }, some e.origin⟩
  | none => { t with issue := { t.issue with line := place.line } }

/-- What an issue with claims is traced to, with entries sorted by output line. -/
def retraceIssue (table : RuleTable) (roots : List String) (entries : List TraceEntry)
    (lines : List String) (t : TracedFields) : TracedFields :=
  landed t (landing entries lines (names table roots t.issue.message t.issue.ruleId) t.issue.line)

/-- Issues with claims, traced with the entries and the clean output of a run. -/
def retraceIssues (table : RuleTable) (roots : List String) (entries : List TraceEntry)
    (output : Option String) (ts : List TracedFields) : List TracedFields :=
  let text := output.getD ""
  if entries.isEmpty && text.isEmpty then ts
  else
    let lines := if text.isEmpty then [] else linesOf text
    ts.map (retraceIssue table roots (sorted entries) lines)

end StylesheetTrace.Finding
