import StylesheetTrace.Finding.Name
import StylesheetTrace.Issue
import StylesheetTrace.Markup.Tag

/-!
# Tracing issues to the stylesheet

An issue is traced by the elements that its message is about: to the first entry that produced such
an element, or else to the first line that opens one, or else it stays on its own line.  Unless the
entry is given by name, the origin is that of the nearest entry before the line.  The first two
lines are where issues land when their place is not known, so that an issue left there is not traced
by its line.
-/

namespace StylesheetTrace.Finding

open StylesheetTrace.Text StylesheetTrace.Markup

/-- The entries by output line; entries of one line keep their order. -/
def sorted (entries : List TraceEntry) : List TraceEntry :=
  entries.mergeSort fun a b => a.outputLine ≤ b.outputLine

/-- The last of the sorted entries that stand on a line or before it. -/
def nearest? (entries : List TraceEntry) (line : Nat) : Option TraceEntry :=
  (entries.filter fun e => e.outputLine ≤ line).getLast?

/-- The first line that opens an element of the given name, counted from 1. -/
def openingLine? (name : String) (lines : List String) : Option Nat :=
  (lines.findIdx? fun line => hasForm (opening? isPlainPrefixChar name.toList) line.toList).map
    (· + 1)

/-- The last line on which an issue may land when its place is not known. -/
def degenerateLines : Nat := 2

/-- The issue moved to a line, with the origin of an entry if there is one. -/
def placed (issue : TracedIssue) (line : Nat) (entry : Option TraceEntry) : TracedIssue :=
  { issue := { issue.issue with line }
    origin := (entry.map TraceEntry.origin).or issue.origin }

/-- The first entry for an element with one of the names, the first name first. -/
def namedEntry? (entries : List TraceEntry) (names : List String) : Option TraceEntry :=
  names.findSome? fun n => entries.find? fun e => e.localName == n

/-- The first line that opens an element with one of the names, the first name first. -/
def namedLine? (lines : List String) (names : List String) : Option Nat :=
  names.findSome? fun n => openingLine? n lines

/-- The issue on its own line, with the origin of the nearest entry before it. -/
def linked (entries : List TraceEntry) (issue : TracedIssue) : TracedIssue :=
  if issue.issue.line ≤ degenerateLines then issue
  else placed issue issue.issue.line (nearest? entries issue.issue.line)

/-- What an issue is traced to, given the names of the elements that it is about. -/
def traceTo (entries : List TraceEntry) (lines : List String) (names : List String)
    (issue : TracedIssue) : TracedIssue :=
  match namedEntry? entries names with
  | some e => placed issue e.outputLine (some e)
  | none =>
    match namedLine? lines names with
    | some line => placed issue line (nearest? entries line)
    | none => linked entries issue

/-- What an issue is traced to, with entries sorted by output line. -/
def traceIssue (table : RuleTable) (roots : List String) (entries : List TraceEntry)
    (lines : List String) (issue : Issue) : TracedIssue :=
  traceTo entries lines (names table roots issue.message issue.ruleId) (.ofIssue issue)

/-- The issues of a run, traced with its entries and its clean output. -/
def traceIssues (table : RuleTable) (roots : List String) (entries : List TraceEntry)
    (output : Option String) (issues : List Issue) : List TracedIssue :=
  let text := output.getD ""
  if entries.isEmpty && text.isEmpty then issues.map .ofIssue
  else
    let lines := if text.isEmpty then [] else linesOf text
    issues.map (traceIssue table roots (sorted entries) lines)

end StylesheetTrace.Finding
