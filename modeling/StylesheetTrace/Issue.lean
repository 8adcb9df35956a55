/-!
# Findings of the validators

An issue is a finding positioned on a line of the clean output.  A traced issue may also know its
origin, the place in the stylesheet that produced the line.  A trace entry links a line of the clean
output with such a place.
-/

namespace StylesheetTrace

/-- How grave a finding is. -/
inductive Severity where
  | error
  | warning
  | information
  deriving Repr, DecidableEq

namespace Severity

/-- The name of the severity in answers. -/
def name : Severity → String
  | error => "error"
  | warning => "warning"
  | information => "information"

/-- The severities, gravest first. -/
def all : List Severity := [error, warning, information]

/-- The severity of a given name. -/
def ofName? (s : String) : Option Severity :=
  all.find? fun v => v.name == s

end Severity

/-- Which validator reported a finding. -/
inductive Source where
  | xsd
  | en16931
  | peppol
  deriving Repr, DecidableEq

namespace Source

/-- The name of the validator in answers. -/
def name : Source → String
  | xsd => "xsd"
  | en16931 => "en16931"
  | peppol => "peppol"

/-- The validators. -/
def all : List Source := [xsd, en16931, peppol]

/-- The validator of a given name. -/
def ofName? (s : String) : Option Source :=
  all.find? fun v => v.name == s

end Source

/-- A finding on a line of the clean output. -/
structure Issue where
  /-- The line, counted from 1. -/
  line : Nat
  /-- The column, which is 0 where none is known. -/
  column : Nat
  /-- What the validator says. -/
  message : String
  /-- How serious the finding is. -/
  severity : Severity
  /-- The identifier of the rule that was violated, if one is named. -/
  ruleId : Option String
  /-- The validator that states the finding. -/
  source : Source
  deriving Repr, DecidableEq

/-- The issue counts as an error. -/
def Issue.isError (i : Issue) : Bool :=
  i.severity == .error

/-- A place in a stylesheet: the line on which a literal element stands. -/
structure Origin where
  /-- The path of the stylesheet. -/
  file : String
  /-- The line, counted from 1. -/
  line : Nat
  /-- The qualified name of the element. -/
  element : String
  deriving Repr, DecidableEq

/-- An issue with the place in the stylesheet that produced its line. -/
structure TracedIssue where
  /-- The issue. -/
  issue : Issue
  /-- The place, where it is known. -/
  origin : Option Origin
  deriving Repr, DecidableEq

namespace TracedIssue

/-- The issue without an origin. -/
def ofIssue (i : Issue) : TracedIssue := ⟨i, none⟩

/-- The place in the stylesheet is known. -/
def isTraced (t : TracedIssue) : Bool := t.origin.isSome

end TracedIssue

/-- A marker recovered from the output. -/
structure TraceEntry where
  /-- The line of the clean output that the marker stands before, counted from 1. -/
  outputLine : Nat
  /-- The place in the stylesheet that it names. -/
  origin : Origin
  deriving Repr, DecidableEq

/-- The element of an entry without its namespace prefix: what follows the last colon. -/
def TraceEntry.localName (e : TraceEntry) : String :=
  let cs := e.origin.element.toList
  String.ofList ((cs.reverse.takeWhile (· != ':')).reverse)

end StylesheetTrace
