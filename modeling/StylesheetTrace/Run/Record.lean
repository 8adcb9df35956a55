import StylesheetTrace.Log
import StylesheetTrace.Run

/-!
# Records of a run

What is noted while a run is traced: the size of the split output, the blocks of assertion reports
that have no text, the number of issues in each report, and the issues that name no element.  What
was noted before a run fails is kept.
-/

namespace StylesheetTrace.Tracer

open StylesheetTrace.Text StylesheetTrace.Report

/-- The part of the program that traces runs. -/
def logOrigin : String := "xsltrace.tracing"

/-- The record of a split output. -/
def splitRecord (output : Output.Split) : LogRecord :=
  ⟨.info, logOrigin,
    s!"Split output: {output.lines.length} clean lines, {output.entries.length} trace entries"⟩

/-- The block states no violation. -/
def isTextless (b : Block) : Bool :=
  match violation? b with
  | .ok none => true
  | _ => false

/-- The block can be read. -/
def isReadable (b : Block) : Bool :=
  match violation? b with
  | .ok _ => true
  | .error _ => false

/-- The records of the blocks without text in an assertion report, up to a block that can not be
read. -/
def droppedRecords (limit : Int) (report : String) : List LogRecord :=
  if (report.length : Int) > limit then []
  else
    let read := (blocks report).takeWhile fun b => isReadable b.2
    (read.filter fun b => isTextless b.2).map fun b =>
      ⟨.debug, "xsltrace.parser",
        s!"Dropping {b.1.tagName} block without text at offset {report.length - b.2.tail.length}"⟩

/-- The record of the issues in a report. -/
def countRecord (r : ValidatorReport) (issues : List Issue) : LogRecord :=
  ⟨.debug, logOrigin, s!"{r.source.name} report ({r.kind.name}): {issues.length} issues"⟩

/-- The records of one report. -/
def reportRecords (t : Tracer) (docLines : List String) (r : ValidatorReport) : List LogRecord :=
  let dropped := match r.kind with
    | .svrl => droppedRecords t.reportLimit r.content
    | .xmllint => []
  match t.reportIssues docLines r with
  | .ok issues => dropped ++ [countRecord r issues]
  | .error _ => dropped

/-- The report can be read. -/
def isReport (t : Tracer) (docLines : List String) (r : ValidatorReport) : Bool :=
  match t.reportIssues docLines r with
  | .ok _ => true
  | .error _ => false

/-- The records of the reports, up to the first that can not be read. -/
def allReportRecords (t : Tracer) (docLines : List String) : List ValidatorReport → List LogRecord
  | [] => []
  | r :: rs =>
    t.reportRecords docLines r ++
      if t.isReport docLines r then allReportRecords t docLines rs else []

/-- The records of the issues that name no element, unless there is nothing to trace them to. -/
def namelessRecords (t : Tracer) (r : RunResult) : List LogRecord :=
  if r.output.entries.isEmpty && r.output.text.isEmpty then []
  else
    let nameless := r.issues.filter fun i =>
      (Finding.names t.table Finding.rootElements i.message i.ruleId).isEmpty
    nameless.map fun i =>
      ⟨.debug, logOrigin, s!"No element name in {quoted i.message}, keeping line {i.line}"⟩

/-- The records of a run when `threshold` is the rank of the least level that is kept. -/
def records (t : Tracer) (threshold : Nat) (raw : String) (reports : List ValidatorReport) :
    List LogRecord :=
  match Output.split t.sentinel raw with
  | .error _ => []
  | .ok output =>
    let details (_ : Unit) : List LogRecord :=
      t.allReportRecords output.lines reports ++
        match t.run raw reports none with
        | .ok r => t.namelessRecords r
        | .error _ => []
    (splitRecord output :: if threshold ≤ LogLevel.debug.rank then details () else []).filter
      (LogRecord.isKept threshold)

end StylesheetTrace.Tracer
