import StylesheetTrace.FileTree
import StylesheetTrace.InputError
import StylesheetTrace.Log
import StylesheetTrace.Marker
import StylesheetTrace.RuleTable.Override
import StylesheetTrace.Validation.Checked

/-!
# Failures of commands

Failures that the caller can mend are reported in the log and lead to the exit code 2.  The others
break the program off, among them an option for which nothing is given where it is needed.
-/

namespace StylesheetTrace.Command

open StylesheetTrace.Text

/-- Why a command fails. -/
inductive Failure where
  | file (e : FileError)
  | noFile (operation : String)
  | noReport
  | nullByte
  | encoding (e : Utf8.DecodeError)
  | settings (faults : List Validation.Fault)
  | logLevel (name : String)
  | marker (e : Marker.EncodeError)
  | input (e : InputError)
  | rules (e : RuleTable.OverrideError)
  deriving Repr, DecidableEq

namespace Failure

/-- The failure is reported in the log. -/
def isReported : Failure → Bool
  | file _ | marker (.delimiter _ _) | input (.tooLarge _ _) => true
  | rules (.yaml (.broken _)) => false
  | rules _ => true
  | _ => false

/-- The wording of the failure. -/
def message : Failure → String
  | file e => e.message
  | noFile operation => s!"'list' object has no attribute {quoted operation}"
  | noReport => "not enough values to unpack (expected 2, got 0)"
  | nullByte => "embedded null byte"
  | encoding e => e.message
  | settings faults => s!"{faults.length} settings are not valid"
  | logLevel name => s!"Unknown level: {quoted (LogLevel.capitals name)}"
  | marker e => e.message
  | input e => e.message
  | rules e => e.message

end Failure

end StylesheetTrace.Command
