import StylesheetTrace.Text.Upper

/-!
# Log records

A record is kept when its level is not below the least level that is set by name.
-/

namespace StylesheetTrace

open StylesheetTrace.Text

/-- How grave a record is. -/
inductive LogLevel where
  | debug
  | info
  | warning
  | error
  deriving Repr, DecidableEq

namespace LogLevel

/-- The name of a level in a record. -/
def name : LogLevel → String
  | debug => "DEBUG"
  | info => "INFO"
  | warning => "WARNING"
  | error => "ERROR"

/-- The rank of a level: graver levels have higher ranks. -/
def rank : LogLevel → Nat
  | debug => 10
  | info => 20
  | warning => 30
  | error => 40

/-- The ranks of the names by which the least level can be set. -/
def thresholds : List (String × Nat) :=
  [("CRITICAL", 50), ("FATAL", 50), ("ERROR", 40), ("WARN", 30), ("WARNING", 30), ("INFO", 20),
   ("DEBUG", 10), ("NOTSET", 0)]

/-- The name of a level as it is looked up: in capital letters. -/
def capitals (name : String) : String := String.ofList (toCapitals name.toList)

/-- The rank of the least level that a name sets, in letters of either case. -/
def threshold? (name : String) : Option Nat := thresholds.lookup (capitals name)

end LogLevel

/-- A record in the log. -/
structure LogRecord where
  /-- Its level. -/
  level : LogLevel
  /-- The part of the program that it is from. -/
  origin : String
  /-- Its text. -/
  message : String
  deriving Repr, DecidableEq

namespace LogRecord

/-- The line of a record. -/
def line (r : LogRecord) : String :=
  s!"{r.level.name}:{r.origin}:{r.message}\n"

/-- The record is kept when `threshold` is the rank of the least level. -/
def isKept (threshold : Nat) (r : LogRecord) : Bool := decide (threshold ≤ r.level.rank)

end LogRecord

end StylesheetTrace
