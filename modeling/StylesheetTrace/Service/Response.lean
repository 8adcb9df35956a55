import StylesheetTrace.Answer
import StylesheetTrace.Service.Timestamp
import StylesheetTrace.Session
import StylesheetTrace.Text.Unencodable
import StylesheetTrace.Validation.Checked

/-!
# Responses

A response has a status and, in most cases, a JSON body.  A response that tells of an error has a
body with a detail: a text, or the faults of the request.
-/

namespace StylesheetTrace.Service

open StylesheetTrace.Text StylesheetTrace.Validation

/-- A response of the service. -/
structure Response where
  /-- The status code. -/
  status : Nat
  /-- The body, if there is one. -/
  body : Option Json

namespace Response

/-- A response with a body. -/
def json (status : Nat) (body : Json) : Response := ⟨status, some body⟩

/-- A response that tells of an error by a text. -/
def detail (status : Nat) (text : String) : Response :=
  json status (.obj [("detail", .str text)])

/-- A response that tells of the faults of a request. -/
def faulty (faults : List Fault) : Response :=
  json 422 (.obj [("detail", .arr (faults.map Answer.fault))])

/-- A response without a body. -/
def empty (status : Nat) : Response := ⟨status, none⟩

/-- The response tells of an error. -/
def isError (r : Response) : Bool := decide (400 ≤ r.status)

/-- What keeps the body from being written in UTF-8. -/
def unencodable? (r : Response) : Option Unencodable :=
  r.body.bind fun j => j.texts.findSome? fun s => Unencodable.find? .utf8 s.toList

end Response

/-- A session. -/
def sessionForm (x : Session) : Json :=
  .obj [("session_id", .str x.id), ("created_at", .str (timestamp x.createdAt)),
    ("last_accessed_at", .str (timestamp x.lastUsed)), ("run_count", .nat x.store.size),
    ("metadata", .obj (x.metadata.map fun (name, value) => (name, .str value)))]

/-- The summary of a run. -/
def summaryForm (s : RunSummary) : Json :=
  .obj [("run_id", .str s.id), ("document", .str s.document),
    ("recorded_at", .str (timestamp s.recordedAt)), ("trace_entries", .nat s.entries),
    ("issues", .nat s.issues), ("errors", .nat s.errors), ("warnings", .nat s.warnings),
    ("passed", Answer.verdicts s.verdicts)]

/-- A run with its result. -/
def runForm (r : RunRecord) : Json :=
  .obj [("run_id", .str r.id), ("document", .str r.document),
    ("recorded_at", .str (timestamp r.recordedAt)), ("clean_output", .str r.result.output.text),
    ("document_info", Answer.document? r.result.document),
    ("trace_entries", .arr (r.result.output.entries.map Answer.entry)),
    ("issues", .arr (r.result.traced.map Answer.traced)),
    ("passed", Answer.verdicts r.result.verdicts),
    ("suggestions", .arr (r.result.suggestions.map Answer.suggestion))]

/-- The issues of a run, and the line on which they are if one was asked for. -/
def issuesForm (line : Option Nat) (issues : List TracedIssue) : Json :=
  .obj [("line", .ofNat? line), ("issues", .arr (issues.map Answer.traced))]

end StylesheetTrace.Service
