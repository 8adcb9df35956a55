import StylesheetTrace.Run

/-!
# Stores of runs

A store keeps the results of runs, oldest first, each under an identifier and tagged with the name
of the document that was traced.  Recording under an identifier that is in use replaces that run
where it stands.
-/

namespace StylesheetTrace

/-- A run in a store. -/
structure RunRecord where
  /-- The identifier of the run. -/
  id : String
  /-- The name of the document. -/
  document : String
  /-- What the tracing came to. -/
  result : RunResult
  /-- The time at which it was recorded, in seconds. -/
  recordedAt : Int
  deriving Repr, DecidableEq

/-- The counts of a run and the verdicts on it. -/
structure RunSummary where
  /-- The identifier of the run. -/
  id : String
  /-- The name of the document. -/
  document : String
  /-- The time at which it was recorded, in seconds. -/
  recordedAt : Int
  /-- The number of trace entries. -/
  entries : Nat
  /-- The number of issues. -/
  issues : Nat
  /-- The number of errors among them. -/
  errors : Nat
  /-- The number of warnings among them. -/
  warnings : Nat
  /-- The verdicts of the validators. -/
  verdicts : Verdicts
  deriving Repr, DecidableEq

/-- The summary of a run. -/
def RunRecord.summary (r : RunRecord) : RunSummary :=
  { id := r.id
    document := r.document
    recordedAt := r.recordedAt
    entries := r.result.output.entries.length
    issues := r.result.issues.length
    errors := r.result.errorCount
    warnings := r.result.warningCount
    verdicts := r.result.verdicts }

/-- The traced issues of a run on one line of its output. -/
def RunRecord.issuesAt (r : RunRecord) (line : Int) : List TracedIssue :=
  r.result.traced.filter fun t => (t.issue.line : Int) == line

/-- There is no run with the identifier. -/
structure RunNotFound where
  /-- The identifier that was asked for. -/
  id : String
  deriving Repr, DecidableEq

/-- The wording of the error. -/
def RunNotFound.message (e : RunNotFound) : String :=
  "No run recorded with id '" ++ e.id ++ "'"

/-- The runs of a store. -/
structure RunStore where
  /-- The runs, oldest first. -/
  runs : List RunRecord
  deriving Repr, DecidableEq

namespace RunStore

/-- The store without runs. -/
def empty : RunStore := ⟨[]⟩

/-- How many runs there are. -/
def size (s : RunStore) : Nat := s.runs.length

/-- The run with an identifier. -/
def get (s : RunStore) (id : String) : Except RunNotFound RunRecord :=
  match s.runs.find? fun r => r.id == id with
  | some r => .ok r
  | none => .error ⟨id⟩

/-- The store with a run recorded. -/
def record (s : RunStore) (r : RunRecord) : RunStore :=
  if s.runs.any fun q => q.id == r.id then
    ⟨s.runs.map fun q => if q.id == r.id then r else q⟩
  else ⟨s.runs ++ [r]⟩

/-- The store without the run of an identifier. -/
def remove (s : RunStore) (id : String) : Except RunNotFound RunStore :=
  (s.get id).map fun _ => ⟨s.runs.filter fun r => r.id != id⟩

/-- The summaries of the runs, oldest first. -/
def summaries (s : RunStore) : List RunSummary :=
  s.runs.map RunRecord.summary

/-- The most recently recorded run of a document. -/
def latest? (s : RunStore) (document : String) : Option RunRecord :=
  s.runs.reverse.find? fun r => r.document == document

end RunStore

/-- What is to be traced and recorded. -/
structure RunRequest where
  /-- The name of the document. -/
  document : String
  /-- The raw output. -/
  raw : String
  /-- The reports of the validators. -/
  reports : List ValidatorReport
  /-- The text of the stylesheet, where it is known. -/
  program : Option String
  deriving Repr, DecidableEq

/-- Traces a run and records it at the time `now` under the identifier `id`.  A run that fails is
not recorded. -/
def RunStore.trace (s : RunStore) (t : Tracer) (id : String) (now : Int) (q : RunRequest) :
    Except InputError (RunRecord × RunStore) :=
  (t.run q.raw q.reports q.program).map fun result =>
    let r : RunRecord := ⟨id, q.document, result, now⟩
    (r, s.record r)

end StylesheetTrace
