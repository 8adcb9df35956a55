import StylesheetTrace.Answer
import StylesheetTrace.Decimal.Nearest
import StylesheetTrace.Json.Writer
import StylesheetTrace.Service.Body
import StylesheetTrace.Text.Unencodable

/-!
# What a refusal repeats of a body

The response to a faulty body tells for each fault which value is at fault, and repeats that value.
So it can not be written if the value holds a number that is not finite or half of a surrogate pair.
-/

namespace StylesheetTrace.Service

open StylesheetTrace.Text StylesheetTrace.Validation

/-- Why a response can not be written. -/
inductive WriteError where
  | notFinite
  | unencodable (u : Unencodable)
  deriving Repr, DecidableEq

/-- The wording of the error. -/
def WriteError.message : WriteError → String
  | notFinite => "Out of range float values are not JSON compliant"
  | unencodable u => u.message

/-- The value at a place within another one. -/
def valueAt? : Json → List Place → Option Json
  | j, [] => some j
  | .arr vs, .item k :: rest => vs[k]?.bind fun v => valueAt? v rest
  | j, .field name :: rest => (j.field? name).bind fun v => valueAt? v rest
  | _, _ => none

/-- The value that is at fault: the one around it, if it is missing. -/
def faultyValue (body : Json) (f : Fault) : Json :=
  let place := f.place.drop 1
  (valueAt? body (if f.kind == .missing then place.dropLast else place)).getD .null

/-- The names that a field may have as its value. -/
def choices (f : Fault) : String :=
  if f.place.getLast? == some (.field "kind") then "'svrl' or 'xmllint'"
  else "'xsd', 'en16931' or 'peppol'"

/-- What a response says of a fault. -/
def faultMessage (f : Fault) : String :=
  match f.kind with
  | .missing => "Field required"
  | .stringType => "Input should be a valid string"
  | .stringTooShort => "String should have at least 1 character"
  | .intType => "Input should be a valid integer"
  | .intParsing => "Input should be a valid integer, unable to parse string as an integer"
  | .intParsingSize => "Unable to parse input string as an integer, exceeded maximum size"
  | .intFromFloat => "Input should be a valid integer, got a number with a fractional part"
  | .finiteNumber => "Input should be a finite number"
  | .greaterThanEqual => "Input should be greater than or equal to 1"
  | .enum => "Input should be " ++ choices f
  | .dictType => "Input should be a valid dictionary"
  | .listType => "Input should be a valid list"
  | .jsonInvalid => "JSON decode error"
  | _ => "Input should be a valid dictionary or object to extract fields from"

/-- What a response adds to the message of a fault. -/
def faultContext (f : Fault) : List (String × Json) :=
  match f.kind with
  | .greaterThanEqual => [("ctx", .obj [("ge", .int 1)])]
  | .enum => [("ctx", .obj [("expected", .str (choices f))])]
  | _ => []

/-- All that a response says of a fault. -/
def faultForm (body : Json) (f : Fault) : Json :=
  .obj ([("type", .str f.kind.name), ("loc", .arr (f.place.map Answer.place)),
    ("msg", .str (faultMessage f)), ("input", faultyValue body f)] ++ faultContext f)

/-- Why the response to a faulty body can not be written. -/
def echoError? (body : Json) (faults : List Fault) : Option WriteError :=
  let form := Json.obj [("detail", .arr (faults.map (faultForm body)))]
  if !form.isFinite then some .notFinite
  else (Unencodable.find? .utf8 form.compactText.toList).map .unencodable

/-- The value of a body, where it was read. -/
def Body.json : Body → Json
  | .value j => j
  | _ => .null

end StylesheetTrace.Service
