import StylesheetTrace.RuleTable
import StylesheetTrace.Text.Blank
import StylesheetTrace.Text.Word
import StylesheetTrace.Yaml.Evaluation

/-!
# Rule tables from YAML

A table of rules can be overridden by a YAML document that maps the identifiers of rules to the name
of an element or to a list of such names.  The text may be neither too long nor mention anchors, and
every name must look like the local name of an element.
-/

namespace StylesheetTrace.RuleTable

open StylesheetTrace.Text StylesheetTrace.Yaml

/-- How long the text of a table may be. -/
def maxSize : Nat := 1000000

/-- Why the text of a table is refused. -/
inductive OverrideError where
  | tooLong (size : Nat)
  | anchor
  | yaml (refusal : Refusal)
  | noMapping
  | notNames (rule : String) (line : Option Nat)
  | badName (rule name : String) (line : Option Nat)
  deriving Repr, DecidableEq

namespace OverrideError

/-- The line to blame, if one is known. -/
def line? : OverrideError → Option Nat
  | yaml (.fault _ line) => some line
  | notNames _ line | badName _ _ line => line
  | _ => none

/-- The wording of the error without its line. -/
def reason : OverrideError → String
  | tooLong size =>
    s!"Rule table exceeds maximum size ({grouped size} chars > {grouped maxSize} limit)"
  | anchor => "YAML anchors/aliases are not supported in rule tables"
  | yaml (.fault problem _) => "Invalid rule table YAML: " ++ problem.message
  | yaml (.unprintable c position) =>
    "Invalid rule table YAML: unacceptable character #x" ++ String.ofList (hexDigits 4 c.toNat) ++
      s!": special characters are not allowed\n  in \"<unicode string>\", position {position}"
  | yaml .unevenBlock => "Invalid rule table YAML: None"
  | yaml (.broken b) => b.message
  | noMapping => "Rule table must be a mapping of rule IDs to element lists"
  | notNames rule _ => s!"Rule '{rule}': expected an element name or a list of element names"
  | badName rule name _ => s!"Rule '{rule}': invalid element name {name}"

/-- The wording of the error. -/
def message (e : OverrideError) : String :=
  match e.line? with
  | some line => s!"{e.reason} (line {line})"
  | none => e.reason

end OverrideError

/-- The characters `last` and `&` and those after them look like the beginning of an anchor. -/
def opensAnchor (last : Option Char) (rest : List Char) : Bool :=
  (last.all fun c => isBlank c || c == '-' || c == ':') && rest.head?.any isWord

/-- A text behind the character `last` seems to have an anchor. -/
def mentionsAnchorFrom : Option Char → List Char → Bool
  | _, [] => false
  | last, c :: rest =>
    if c == '&' && opensAnchor last rest then true else mentionsAnchorFrom (some c) rest

/-- The text seems to have an anchor: a name behind an ampersand, at the beginning or behind a
blank, a hyphen or a colon. -/
def mentionsAnchor (s : List Char) : Bool := mentionsAnchorFrom none s

/-- A character that begins the name of an element. -/
def startsName (c : Char) : Bool := c.isAlpha || c == '_'

/-- A character of the name of an element. -/
def isNameChar (c : Char) : Bool := c.isAlphanum || c == '_' || c == '.' || c == '-'

/-- The text looks like the local name of an element; a line feed may end it. -/
def isElementName (s : List Char) : Bool :=
  match s with
  | c :: rest =>
    startsName c && (rest.dropWhile isNameChar == [] || rest.dropWhile isNameChar == ['\n'])
  | [] => false

/-- A value can be written in a message. -/
def checkShown (v : Value) : Except OverrideError Unit :=
  (Value.checkShown [v]).mapError fun b => .yaml (.broken b)

/-- The name that an item gives for a rule. -/
def nameOf (rule : String) (line : Option Nat) (v : Value) : Except OverrideError String :=
  match v with
  | .str s => if isElementName s.toList then .ok s else .error (.badName rule v.shown line)
  | _ => checkShown v >>= fun _ => .error (.badName rule v.shown line)

/-- The names that a value gives for a rule. -/
def namesOf (rule : String) (line : Option Nat) (v : Value) : Except OverrideError (List String) :=
  match v with
  | .str s => (nameOf rule line (.str s)).map fun n => [n]
  | .seq items | .pairs items => items.mapM (nameOf rule line)
  | _ => .error (.notNames rule line)

/-- The rule that an entry gives.  Its key is written in any case. -/
def ruleOf (e : Entry) : Except OverrideError (String × List String) := do
  let (line, key, value) := e
  checkShown key
  pure (key.text, ← namesOf key.text line value)

/-- The rules that a value gives, in its order. -/
def rulesOf (v : Value) : Except OverrideError (List (String × List String)) :=
  match v with
  | .map entries | .ordered entries => entries.mapM ruleOf
  | _ => .error .noMapping

/-- The rules that a YAML text gives; a text without content gives none. -/
def rulesOfYaml (s : List Char) : Except OverrideError (List (String × List String)) :=
  if s.length > maxSize then .error (.tooLong s.length)
  else if mentionsAnchor s then .error .anchor
  else
    match Value.ofText s with
    | .error e => .error (.yaml e)
    | .ok .null => .ok []
    | .ok v => rulesOf v

/-- The table overridden by the rules of a YAML text: a rule of the table keeps its place, and of
the new ones the first given comes first. -/
def overrideBy (t : RuleTable) (s : List Char) : Except OverrideError RuleTable :=
  (rulesOfYaml s).map fun rules => t.merge (ofList rules).rules

end StylesheetTrace.RuleTable
