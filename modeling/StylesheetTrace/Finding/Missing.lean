import StylesheetTrace.Finding.Name
import StylesheetTrace.Issue
import StylesheetTrace.Stylesheet.Template

/-!
# Missing elements

A mandatory element that is missing never appears in the output, so that no entry leads to it.  Its
name is read from the message of the finding, and the template that produces its parent is suggested
as the place to add it.
-/

namespace StylesheetTrace.Finding

open StylesheetTrace.Text StylesheetTrace.Stylesheet

/-- A row of word characters before a closing apostrophe. -/
def wordInQuotes? : Reader (List Char) := fun s => do
  let (w, rest) ← run? isWord s
  let rest ← after? ['\''] rest
  some (w, rest)

/-- A phrase in any case, and what `r` reads later in its line. -/
def phraseThen? {α : Type} (phrase : String) (r : Reader α) : Reader α := fun s =>
  (afterCaseless? phrase.toList s).bind (inLine? r)

/-- The identifier of a rule: parts of letters and digits joined by `-`, two at least, the first of
which begins with a letter.  The two predicates say which letters and digits count. -/
def isRuleId (letter alphanum : Char → Bool) (w : List Char) : Bool :=
  let parts := splitOn '-' w
  (w.head?.elim false letter) && decide (2 ≤ parts.length) &&
    parts.all fun p => !p.isEmpty && p.all alphanum

/-- A rule in brackets. -/
def ruleReference? (letter alphanum : Char → Bool) : Reader (List Char)
  | '[' :: s =>
    let w := s.takeWhile fun c => alphanum c || c == '-'
    if isRuleId letter alphanum w then
      (after? [']'] (s.drop w.length)).map fun rest => (w, rest)
    else none
  | _ => none

/-- An ASCII capital or a digit. -/
def isUpperAlphanum (c : Char) : Bool :=
  c.isUpper || c.isDigit

/-- A child that the schema expects, in the message that a child is missing. -/
def missingChild? : Reader (List Char) :=
  phraseThen? "missing child element(s)" (phraseThen? "expected" (braced? (run? isWord)))

/-- A word in apostrophes, its namespace in braces skipped, and later in the line that it is not
expected. -/
def notExpectedName? : Reader (List Char) := fun s => do
  let s ← after? ['\''] s
  let (w, s) ← wordInQuotes? (skipBraces s)
  let (_, s) ← inLine? (fun s => (afterCaseless? "is not expected".toList s).map ((), ·)) s
  some (w, s)

/-- An element that the schema does not expect. -/
def unexpectedElement? : Reader (List Char) :=
  phraseThen? "element" notExpectedName?

/-- The phrases by which a rule demands an element. -/
def demands : List String := ["must exist", "is mandatory", "shall exist"]

/-- A rule in brackets, in any case, that demands an element. -/
def demandingRule? : Reader (List Char) := fun s => do
  let (w, s) ← ruleReference? isCaselessLetter isCaselessAlphanum s
  let (_, s) ←
    inLine? (fun s => (demands.findSome? fun p => afterCaseless? p.toList s).map ((), ·)) s
  some (w, s)

/-- The text after a quote of either kind, which may be missing. -/
def skipQuote : List Char → List Char
  | '\'' :: s => s
  | '"' :: s => s
  | s => s

/-- A word that is announced as an element, its quote skipped. -/
def announcedWord? : Reader (List Char) := fun s => do
  let s ← ["element", "cbc:", "cac:"].findSome? fun p => afterCaseless? p.toList s
  run? isWord (skipQuote (s.dropWhile isBlank))

/-- An element that a message calls missing. -/
def calledMissing? : Reader (List Char) :=
  phraseThen? "missing" announcedWord?

/-- The forms by which a message names a missing element, in the order in which they are tried. -/
def missingForms : List (Reader (List Char)) :=
  [missingChild?, unexpectedElement?, demandingRule?, calledMissing?]

/-- The element for which a name that was read stands: the first target of a rule, which must be
known, or the name itself. -/
def missingFor? (table : RuleTable) (w : List Char) : Option String :=
  if isRuleId Char.isUpper isUpperAlphanum w then (table.targets (String.ofList w)).head?
  else some (String.ofList w)

/-- The missing element that a message is about. -/
def missing? (table : RuleTable) (message : String) : Option String :=
  missingForms.findSome? fun form =>
    (firstForm? form message.toList).bind (missingFor? table)

/-- The word `Element` and a word in apostrophes, its namespace in braces skipped. -/
def parentMention? : Reader (List Char) := fun s =>
  (after? "Element '".toList s).bind fun s => wordInQuotes? (skipBraces s)

/-- The target that follows a target which is not the last. -/
def targetAfter? (missing : String) (targets : List String) : Option String :=
  if targets.dropLast.contains missing then targets[targets.idxOf missing + 1]? else none

/-- The parent of a missing element: the element that the message names, or else the next target of
a rule that it mentions. -/
def parent? (table : RuleTable) (message missing : String) : Option String :=
  match firstForm? parentMention? message.toList with
  | some w => some (String.ofList w)
  | none =>
    (collect (ruleReference? Char.isUpper isUpperAlphanum) message.toList).findSome? fun w =>
      targetAfter? missing (table.targets (String.ofList w))

/-- The text `part` occurs in `whole`. -/
def isPartOf (part whole : String) : Bool :=
  occurs part.toList whole.toList

/-- The template responsible for a missing element: the first that produces its parent and not the
element itself, or else the first that matches the parent. -/
def responsible? (templates : List Template) (parent missing : String) : Option Template :=
  if parent.isEmpty then none
  else
    (templates.find? fun t => t.produced.contains parent && !t.produced.contains missing).or
      (templates.find? fun t => isPartOf parent t.pattern)

/-- A missing element and where to add it. -/
structure Suggestion where
  /-- The name of the missing element. -/
  missing : String
  /-- The name of the element in which it is missing, where that is known. -/
  parent : Option String
  /-- The issue that reports it. -/
  issue : Issue
  /-- The template in which to add it. -/
  template : Option Template
  deriving Repr, DecidableEq

/-- How the parent is called in answers. -/
def Suggestion.parentName (s : Suggestion) : String :=
  s.parent.getD "unknown"

/-- The suggestion for an issue that reports a missing element. -/
def suggestion? (table : RuleTable) (templates : List Template) (issue : Issue) :
    Option Suggestion :=
  (missing? table issue.message).map fun missing =>
    let parent := (parent? table issue.message missing).filter fun p => !p.isEmpty
    ⟨missing, parent, issue, parent.bind fun p => responsible? templates p missing⟩

/-- The suggestions for the issues that report a missing element. -/
def suggestions (table : RuleTable) (templates : List Template) (issues : List Issue) :
    List Suggestion :=
  issues.filterMap (suggestion? table templates)

end StylesheetTrace.Finding
