import StylesheetTrace.Document
import StylesheetTrace.Issue
import StylesheetTrace.Location.Path
import StylesheetTrace.Report.Assertion
import StylesheetTrace.Validation.Scalar

/-!
# Checks of the records

Each record of the domain is checked field by field; unknown fields are ignored.
-/

namespace StylesheetTrace.Validation

/-- An issue. -/
def issueFields (j : Json) : Checked Issue :=
  Issue.mk <$> required (atLeast 1) "line" j
    <*> optional (atLeast 0) 0 "column" j
    <*> required text "message" j
    <*> optional (choice Severity.ofName?) .error "severity" j
    <*> optional (nullable text) none "rule_id" j
    <*> required (choice Source.ofName?) "source" j

/-- An issue given as an object. -/
def issue : Json → Checked Issue :=
  record .modelType issueFields

/-- An issue with what is claimed of its origin, each part on its own. -/
structure TracedFields where
  /-- The issue. -/
  issue : Issue
  /-- The path of the stylesheet, where it is claimed. -/
  file : Option String
  /-- The line of the stylesheet, where it is claimed. -/
  line : Option Int
  /-- The name of the element, where it is claimed. -/
  element : Option String
  deriving Repr, DecidableEq

/-- A traced issue. -/
def tracedFields : Json → Checked TracedFields :=
  record .modelType fun j =>
    TracedFields.mk <$> issueFields j
      <*> optional (nullable text) none "producing_file" j
      <*> optional (nullable whole) none "producing_line" j
      <*> optional (nullable text) none "producing_element" j

/-- A trace entry. -/
def entry : Json → Checked TraceEntry :=
  record .modelType fun j =>
    (fun out file line element => ⟨out, ⟨file, line, element⟩⟩)
      <$> required (atLeast 1) "output_line" j
      <*> required text "source_file" j
      <*> required (atLeast 1) "source_line" j
      <*> required text "element_name" j

/-- A step of a location path. -/
def step : Json → Checked Location.Step :=
  record .modelType fun j =>
    Location.Step.mk <$> required text "element_name" j
      <*> optional (atLeast 1) 1 "occurrence_index" j

/-- A violation. -/
def violation : Json → Checked Report.Violation :=
  record .modelType fun j =>
    Report.Violation.mk <$> optional (nullable text) none "rule_id" j
      <*> optional text "error" "severity_flag" j
      <*> optional text "" "location_path" j
      <*> required text "message_text" j

/-- What is known of a document. -/
def documentInfo : Json → Checked DocumentInfo :=
  record .modelType fun j =>
    DocumentInfo.mk <$> required text "root_element" j
      <*> required text "namespace" j
      <*> required text "document_type" j
      <*> required truth "is_invoice_or_credit_note" j

end StylesheetTrace.Validation
