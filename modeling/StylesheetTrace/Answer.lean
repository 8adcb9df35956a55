import StylesheetTrace.Json.Basic
import StylesheetTrace.Run
import StylesheetTrace.Validation.Checked

/-!
# Answers in JSON

The JSON forms of the records that are handed out, with their fields in a fixed order.
-/

namespace StylesheetTrace.Answer

/-- The fields of an issue. -/
def issueFields (i : Issue) : List (String × Json) :=
  [("line", .nat i.line), ("column", .nat i.column), ("message", .str i.message),
   ("severity", .str i.severity.name), ("rule_id", .ofText? i.ruleId),
   ("source", .str i.source.name)]

/-- An issue. -/
def issue (i : Issue) : Json := .obj (issueFields i)

/-- A traced issue. -/
def traced (t : TracedIssue) : Json :=
  .obj (issueFields t.issue ++
    [("producing_file", .ofText? (t.origin.map Origin.file)),
     ("producing_line", .ofNat? (t.origin.map Origin.line)),
     ("producing_element", .ofText? (t.origin.map Origin.element))])

/-- A trace entry. -/
def entry (e : TraceEntry) : Json :=
  .obj [("output_line", .nat e.outputLine), ("source_file", .str e.origin.file),
    ("source_line", .nat e.origin.line), ("element_name", .str e.origin.element)]

/-- What is known of a document. -/
def document (d : DocumentInfo) : Json :=
  .obj [("root_element", .str d.rootElement), ("namespace", .str d.namespaceName),
    ("document_type", .str d.documentType),
    ("is_invoice_or_credit_note", .bool d.isInvoiceOrCreditNote)]

/-- What is known of a document, or null. -/
def document? (d : Option DocumentInfo) : Json :=
  (d.map document).getD .null

/-- The verdicts on a run, by the names of the validators. -/
def verdicts (v : Verdicts) : Json :=
  .obj (v.map fun (source, passed) => (source.name, .bool passed))

/-- A suggestion, with the pattern and the line of its template. -/
def suggestion (s : Finding.Suggestion) : Json :=
  .obj [("missing_element", .str s.missing), ("parent_element", .str s.parentName),
    ("message", .str s.issue.message),
    ("template_match", .ofText? (s.template.map Stylesheet.Template.pattern)),
    ("template_line", .ofNat? (s.template.map Stylesheet.Template.line))]

/-- A step on the way to a value. -/
def place : Validation.Place → Json
  | .field name => .str name
  | .item k => .nat k

/-- A fault of checked data. -/
def fault (f : Validation.Fault) : Json :=
  .obj [("type", .str f.kind.name), ("loc", .arr (f.place.map place))]

end StylesheetTrace.Answer
