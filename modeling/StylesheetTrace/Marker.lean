import StylesheetTrace.Text.Number
import StylesheetTrace.Text.Quoted

/-!
# Trace markers

A marker is a comment `<!--SENTINEL|file|line|element-->` that an instrumented stylesheet writes
before an element.  Its fields are told apart by a vertical bar, so that neither the file nor the
element may hold one.  A number of more than 4300 digits is not written.
-/

namespace StylesheetTrace.Marker

open StylesheetTrace.Text

/-- The sentinel with which markers begin, unless another is set. -/
def defaultSentinel : String := "XSLT-TRACE"

/-- The character between the fields of a marker. -/
def delimiter : Char := '|'

/-- The fields of a marker that could hold a delimiter. -/
inductive Field where
  | file
  | element
  deriving Repr, DecidableEq

/-- How a field is called in messages. -/
def Field.label : Field → String
  | file => "program path"
  | element => "element name"

/-- Why a marker is not written. -/
inductive EncodeError where
  /-- A field holds a delimiter, so that the marker could not be read back. -/
  | delimiter (field : Field) (value : String)
  /-- The number of the line has too many digits. -/
  | longLine
  deriving Repr, DecidableEq

/-- The wording of the error. -/
def EncodeError.message : EncodeError → String
  | delimiter field value =>
    "Cannot encode trace marker: " ++ field.label ++ " " ++ quoted value ++ " contains '|'"
  | longLine =>
    s!"Exceeds the limit ({TooLong.limit} digits) for integer string conversion; " ++
      "use sys.set_int_max_str_digits() to increase the limit"

/-- A field with a delimiter is refused. -/
def check (field : Field) (value : String) : Except EncodeError Unit :=
  if value.toList.contains delimiter then .error (.delimiter field value) else .ok ()

/-- The text of a marker, without the comment around it, for a line that is counted in a text: no text
has so many lines that the number of one is too long. -/
def text (sentinel file : String) (line : Int) (element : String) : Except EncodeError String := do
  check .file file
  check .element element
  pure ("|".intercalate [sentinel, file, toString line, element])

/-- The text of a marker for any line. -/
def encode (sentinel file : String) (line : Int) (element : String) :
    Except EncodeError String := do
  let marker ← text sentinel file line element
  if TooLong.limit < (toString line.natAbs).length then .error .longLine else .ok marker

end StylesheetTrace.Marker
