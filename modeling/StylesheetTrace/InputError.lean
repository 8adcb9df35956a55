import StylesheetTrace.Text.Number

/-!
# Refused inputs
-/

namespace StylesheetTrace

open StylesheetTrace.Text

/-- Why the output of a transformation or the report of a validator is refused. -/
inductive InputError where
  | tooLarge (size : Nat) (limit : Int)
  | number (e : TooLong)
  deriving Repr, DecidableEq

/-- The wording of the error. -/
def InputError.message : InputError → String
  | tooLarge size limit =>
    s!"Validation report exceeds maximum size ({grouped size} chars > {grouped limit} limit)"
  | number e => e.message

end StylesheetTrace
