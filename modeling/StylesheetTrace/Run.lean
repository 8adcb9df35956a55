import StylesheetTrace.Document
import StylesheetTrace.Finding.Mapping
import StylesheetTrace.Finding.Missing
import StylesheetTrace.Marker
import StylesheetTrace.Output.Split
import StylesheetTrace.Report.Assertion
import StylesheetTrace.Report.SchemaLog
import StylesheetTrace.RuleTable.Default

/-!
# Tracing a run

A run is one transformation: the raw output of the instrumented stylesheet and the reports of the
validators on the clean output.  Its result holds the clean output, the trace entries, the issues of
all reports in order, each traced to the stylesheet, and for each validator whether it passed.
-/

namespace StylesheetTrace

open StylesheetTrace.Text StylesheetTrace.Report StylesheetTrace.Finding

/-- The format of a report. -/
inductive ReportKind where
  | svrl
  | xmllint
  deriving Repr, DecidableEq

namespace ReportKind

/-- The name of the format in answers. -/
def name : ReportKind → String
  | svrl => "svrl"
  | xmllint => "xmllint"

/-- The formats. -/
def all : List ReportKind := [svrl, xmllint]

/-- The format of a given name. -/
def ofName? (s : String) : Option ReportKind :=
  all.find? fun v => v.name == s

end ReportKind

/-- The report of a validator on the clean output. -/
structure ValidatorReport where
  /-- The validator. -/
  source : Source
  /-- How its report is written. -/
  kind : ReportKind
  /-- The text of the report. -/
  content : String
  deriving Repr, DecidableEq

/-- How runs are traced. -/
structure Tracer where
  /-- The sentinel of markers. -/
  sentinel : String
  /-- The greatest size of an assertion report. -/
  reportLimit : Int
  /-- The targets of rules. -/
  table : RuleTable
  deriving Repr, DecidableEq

/-- The tracer when nothing is set. -/
def Tracer.default : Tracer :=
  ⟨Marker.defaultSentinel, Report.defaultLimit, RuleTable.default⟩

/-- The validators of a run in the order of their first report, each with whether it passed. -/
abbrev Verdicts := List (Source × Bool)

/-- The verdicts after one more report. -/
def Verdicts.record (v : Verdicts) (source : Source) (passed : Bool) : Verdicts :=
  if v.any fun p => p.1 == source then
    v.map fun p => if p.1 == source then (p.1, p.2 && passed) else p
  else v ++ [(source, passed)]

/-- The result of tracing a run. -/
structure RunResult where
  /-- The clean output and the trace entries. -/
  output : Output.Split
  /-- What is known of the document, if it is a business document. -/
  document : Option DocumentInfo
  /-- The issues that the reports state, in their order. -/
  issues : List Issue
  /-- The same issues with the places in the stylesheet that produced them. -/
  traced : List TracedIssue
  /-- The validators whose reports were read, and whether they state no error. -/
  verdicts : Verdicts
  /-- The missing elements and where to add them. -/
  suggestions : List Suggestion
  deriving Repr, DecidableEq

namespace RunResult

/-- How many issues have a severity. -/
def countOf (r : RunResult) (s : Severity) : Nat :=
  r.issues.countP fun i => i.severity == s

/-- How many issues are errors. -/
def errorCount (r : RunResult) : Nat := r.countOf .error

/-- How many issues are warnings. -/
def warningCount (r : RunResult) : Nat := r.countOf .warning

/-- Every validator passed. -/
def allPassed (r : RunResult) : Bool :=
  r.verdicts.all fun p => p.2

end RunResult

namespace Tracer

/-- The issues that a report states on a clean output of the given lines. -/
def reportIssues (t : Tracer) (docLines : List String) (r : ValidatorReport) :
    Except InputError (List Issue) :=
  match r.kind with
  | .xmllint => (logIssues r.content).mapError .number
  | .svrl => do
    let vs ← violations t.reportLimit r.content
    (issuesOf r.source docLines vs).mapError .number

/-- The verdicts of the reports, each given with its issues. -/
def verdictsOf (found : List (ValidatorReport × List Issue)) : Verdicts :=
  found.foldl (fun v (r, issues) => v.record r.source (!issues.any Issue.isError)) []

/-- The suggestions for the issues of a run, when the stylesheet is given. -/
def suggestionsFor (t : Tracer) (program : Option String) (issues : List Issue) :
    List Suggestion :=
  match program with
  | none => []
  | some text => suggestions t.table (Stylesheet.templates text) issues

/-- The result of a run, from its split output and the reports with their issues. -/
def resultOf (t : Tracer) (output : Output.Split) (found : List (ValidatorReport × List Issue))
    (program : Option String) : RunResult :=
  let issues := found.flatMap fun f => f.2
  { output
    document := DocumentInfo.detect? output.text
    issues
    traced := traceIssues t.table rootElements output.entries (some output.text) issues
    verdicts := verdictsOf found
    suggestions := t.suggestionsFor program issues }

/-- Traces a run: its raw output, the reports on it and, where it is known, the stylesheet. -/
def run (t : Tracer) (raw : String) (reports : List ValidatorReport) (program : Option String) :
    Except InputError RunResult := do
  let output ← (Output.split t.sentinel raw).mapError .number
  let found ← reports.mapM fun r => (t.reportIssues output.lines r).map fun issues => (r, issues)
  pure (t.resultOf output found program)

end Tracer

end StylesheetTrace
