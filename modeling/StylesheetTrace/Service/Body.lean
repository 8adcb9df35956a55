import StylesheetTrace.Json.Encoding
import StylesheetTrace.Json.Reader
import StylesheetTrace.RunStore
import StylesheetTrace.Service.Request
import StylesheetTrace.Service.Response
import StylesheetTrace.Validation.Scalar

/-!
# Bodies of requests

A body is read as JSON when its type says so; otherwise it stays undecoded, and no record can be
read from it.  An empty body and a null count as none.
-/

namespace StylesheetTrace.Service

open StylesheetTrace.Text StylesheetTrace.Validation

/-- A body as the endpoints see it. -/
inductive Body where
  | none
  | undecoded
  | value (j : Json)

/-- The type of a body is JSON or a format on top of it. -/
def isJsonType (contentType : String) : Bool :=
  let name := (strip (contentType.toList.takeWhile (· != ';'))).map Char.toLower
  match splitOn '/' name with
  | [main, sub] =>
    main == "application".toList && (sub == "json".toList || "+json".toList.isSuffixOf sub)
  | _ => false

/-- The response to a body that can not be read. -/
def unreadable : Response := .detail 400 "There was an error parsing the body"

/-- The JSON value in a body. -/
def readJson (bytes : ByteArray) : Except Response Json :=
  match Json.textOfBytes? bytes with
  | none => .error unreadable
  | some s =>
    match Json.read s with
    | .ok j => .ok j
    | .error (.malformed rest) =>
      .error (.faulty [⟨.jsonInvalid, [.field "body", .item (s.length - rest.length)]⟩])
    | .error _ => .error unreadable

/-- The body of a request, of which the bytes were taken. -/
def Body.read (r : Request) (bytes : ByteArray) : Except Response Body :=
  if bytes.size = 0 then .ok .none
  else if isJsonType ((r.header? "content-type").getD "") then (readJson bytes).map .value
  else .ok .undecoded

/-- The record that a body must hold. -/
def Body.record {α : Type} (read : Json → Checked α) (b : Body) : Checked α :=
  Checked.within (.field "body") <|
    match b with
    | .none | .value .null => .fail .missing
    | .undecoded => .fail .modelAttributesType
    | .value j => Validation.record .modelAttributesType read j

/-- The record that a body may hold. -/
def Body.recordOr {α : Type} (default : α) (read : Json → Checked α) (b : Body) : Checked α :=
  match b with
  | .none | .value .null => .valid default
  | _ => b.record read

/-- What a client notes about a new session. -/
def metadataForm (j : Json) : Checked (List (String × String)) :=
  optional textsByName [] "metadata" j

/-- A report of a run. -/
def reportForm : Json → Checked ValidatorReport :=
  Validation.record .modelAttributesType fun j =>
    ValidatorReport.mk <$> required (choice Source.ofName?) "source" j
      <*> optional (choice ReportKind.ofName?) .svrl "kind" j
      <*> required text "content" j

/-- A run that is to be traced. -/
def runRequestForm (j : Json) : Checked RunRequest :=
  RunRequest.mk <$> optional text "output.xml" "document" j
    <*> required text "raw_output" j
    <*> optional (listOf reportForm) [] "reports" j
    <*> optional (nullable text) none "program_text" j

/-- What is asked for when a stylesheet is to be instrumented. -/
structure InstrumentRequest where
  /-- The text of the stylesheet. -/
  content : String
  /-- The path for its markers. -/
  file : String
  deriving Repr, DecidableEq

/-- A stylesheet that is to be instrumented. -/
def instrumentForm (j : Json) : Checked InstrumentRequest :=
  InstrumentRequest.mk <$> required text "content" j <*> required text "program_file" j

/-- What is asked for when a location is to be resolved. -/
structure ResolveRequest where
  /-- The location path. -/
  location : String
  /-- The text of the document. -/
  content : String
  /-- The line where the path leads nowhere. -/
  fallback : Nat
  deriving Repr, DecidableEq

/-- A location path that is to be resolved. -/
def resolveForm (j : Json) : Checked ResolveRequest :=
  ResolveRequest.mk <$> required text "location" j
    <*> required text "content" j
    <*> optional (atLeast 1) 1 "fallback" j

end StylesheetTrace.Service
