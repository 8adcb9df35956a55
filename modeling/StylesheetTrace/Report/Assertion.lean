import StylesheetTrace.Entity.Reference
import StylesheetTrace.InputError
import StylesheetTrace.Issue
import StylesheetTrace.Location.Resolve
import StylesheetTrace.Text.Word

/-!
# Assertion reports

A Schematron validator writes its findings as elements `failed-assert` and `successful-report` of
the SVRL format.  The report is searched for these blocks without being parsed, so that a truncated
report yields the blocks that are complete.  A block becomes a violation when it has a `text` child;
the violation becomes an issue once its location is found in the lines of the document.
-/

namespace StylesheetTrace.Report

open StylesheetTrace.Text StylesheetTrace.Entity StylesheetTrace.Markup StylesheetTrace.Location

/-- The two kinds of block that hold a finding. -/
inductive BlockKind where
  | failedAssert
  | successfulReport
  deriving Repr, DecidableEq

namespace BlockKind

/-- The local name of a block's element. -/
def tagName : BlockKind → String
  | failedAssert => "failed-assert"
  | successfulReport => "successful-report"

/-- The kinds in the order in which a report is searched for them. -/
def all : List BlockKind := [failedAssert, successfulReport]

end BlockKind

/-- A block of a report. -/
structure Block where
  /-- The attributes in its start tag. -/
  attributes : List Char
  /-- What stands between its tags. -/
  body : List Char
  /-- The report from the beginning of the block on. -/
  tail : List Char
  deriving Repr, DecidableEq

/-- A finding as the report states it. -/
structure Violation where
  /-- The identifier of the rule, if it is given. -/
  ruleId : Option String
  /-- The flag as it is written, or the one that stands for none. -/
  flag : String
  /-- The location path, which is empty where none is given. -/
  location : String
  /-- The text of the message. -/
  message : String
  deriving Repr, DecidableEq

/-- The attributes and the body of an element `tag`, prefix included, read behind that name, and the
text after the element.  The start tag does not close the element at once. -/
def element? (tag s : List Char) : Option ((List Char × List Char) × List Char) :=
  if endsWord s then
    (tagInside? s).bind fun (attributes, rest) =>
      if endsWithSlash attributes then none
      else (body? tag rest).map fun (body, after) => ((attributes, body), after)
  else none

/-- The element with local name `name` that begins with the name at the head of `s`, first read with
a prefix, then without.  `read` reads what follows the full name. -/
def prefixedElement? {β : Type} (read : List Char → List Char → Option β) (name s : List Char) :
    Option β :=
  let bare := (after? name s).bind (read name)
  match afterPrefix? isPrefixChar s with
  | none => bare
  | some rest =>
    match (after? name rest).bind (read (s.takeWhile isPrefixChar ++ ':' :: name)) with
    | some found => some found
    | none => bare

/-- A block of the given kind. -/
def block? (kind : BlockKind) : Reader Block
  | '<' :: s =>
    (prefixedElement? element? kind.tagName.toList s).map fun ((attributes, body), rest) =>
      (⟨attributes, body, '<' :: s⟩, rest)
  | _ => none

/-- The body of a `text` element `tag`, prefix included, read behind that name. -/
def textBody? (tag s : List Char) : Option (List Char × List Char) :=
  if endsWord s then (tagInside? s).bind fun (_, rest) => body? tag rest else none

/-- A `text` element. -/
def textElement? : Reader (List Char)
  | '<' :: s => prefixedElement? textBody? "text".toList s
  | _ => none

/-- The attributes that a violation is read from. -/
inductive Field where
  | id
  | flag
  | location
  deriving Repr, DecidableEq

namespace Field

/-- The name of the attribute. -/
def name : Field → String
  | id => "id"
  | flag => "flag"
  | location => "location"

/-- The attributes that a violation is read from. -/
def all : List Field := [id, flag, location]

end Field

/-- A value in quotes of either kind and the text after it. -/
def quotedValue? : Reader (List Char)
  | '"' :: s => cut? ['"'] s
  | '\'' :: s => cut? ['\''] s
  | _ => none

/-- An attribute with its value, read behind a blank. -/
def attribute? : Reader (Field × List Char)
  | c :: s =>
    if isBlank c then
      Field.all.findSome? fun f => do
        let s ← after? f.name.toList s
        let s ← after? ['='] (s.dropWhile isBlank)
        let (value, rest) ← quotedValue? (s.dropWhile isBlank)
        some ((f, value), rest)
    else none
  | [] => none

/-- The values of the attributes that a violation is read from, in the order of the text. -/
def fieldValues (attributes : List Char) : Except TooLong (List (Field × String)) :=
  (collect attribute? (' ' :: attributes)).mapM fun (f, raw) =>
    (unescape raw).map fun value => (f, String.ofList value)

/-- The last value given for a field. -/
def lastValue? (values : List (Field × String)) (f : Field) : Option String :=
  values.reverse.lookup f

/-- A tag of any kind inside a message. -/
def innerTag? : Reader Unit
  | '<' :: s =>
    match tagInside? s with
    | some (inside, rest) => if inside.isEmpty then none else some ((), rest)
    | none => none
  | _ => none

/-- The text of a message: tags left out, references replaced, blanks collapsed. -/
def messageText (body : List Char) : Except TooLong String :=
  (unescape (erase innerTag? body)).map fun s => String.ofList (strip (collapse s))

/-- The violation that a block states, if it has a `text` child. -/
def violation? (b : Block) : Except TooLong (Option Violation) :=
  match firstForm? textElement? b.body with
  | none => .ok none
  | some body => do
    let values ← fieldValues b.attributes
    let message ← messageText body
    let ruleId := (lastValue? values .id).filter fun id => !id.isEmpty
    pure (some
      { ruleId, message
        flag := (lastValue? values .flag).getD "error"
        location := (lastValue? values .location).getD "" })

/-- The blocks of a report: the failed assertions in order, then the successful reports. -/
def blocks (report : String) : List (BlockKind × Block) :=
  BlockKind.all.flatMap fun kind => (collect (block? kind) report.toList).map fun b => (kind, b)

/-- The size of a report above which it is refused, unless a limit is set. -/
def defaultLimit : Int := 20000000

/-- The violations of a report of at most `limit` characters. -/
def violations (limit : Int) (report : String) : Except InputError (List Violation) :=
  if (report.length : Int) > limit then .error (.tooLarge report.length limit)
  else (((blocks report).mapM fun b => violation? b.2).map (List.filterMap id)).mapError .number

/-- The severity that a flag stands for: an unknown flag counts as an error. -/
def severityOf (flag : String) : Severity :=
  match String.ofList ((strip flag.toList).map Char.toLower) with
  | "warning" => .warning
  | "information" => .information
  | "info" => .information
  | _ => .error

/-- The message of an issue: the rule's identifier in brackets, if it has one, before the text. -/
def labelled (ruleId : Option String) (text : String) : String :=
  match ruleId with
  | none => text
  | some "" => text
  | some id => "[" ++ id ++ "] " ++ text

/-- The issue that a violation stands for in a document of the given lines. -/
def issueOf (source : Source) (docLines : List String) (v : Violation) : Except TooLong Issue :=
  (steps v.location).map fun path =>
    { line := (locate? path docLines).getD 1
      column := 0
      message := labelled v.ruleId v.message
      severity := severityOf v.flag
      ruleId := v.ruleId
      source }

/-- The issues that violations stand for. -/
def issuesOf (source : Source) (docLines : List String) (vs : List Violation) :
    Except TooLong (List Issue) :=
  vs.mapM (issueOf source docLines)

end StylesheetTrace.Report
