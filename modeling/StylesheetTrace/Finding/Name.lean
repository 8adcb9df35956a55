import StylesheetTrace.RuleTable
import StylesheetTrace.Text.Blank
import StylesheetTrace.Text.Caseless
import StylesheetTrace.Text.Lines
import StylesheetTrace.Text.Scan
import StylesheetTrace.Text.Word

/-!
# The elements that a message is about

Six strategies guess element names from the message of a finding and its rule.  They are tried in
order; the first that names an element other than a document's root decides, and its names are
given the most specific first.
-/

namespace StylesheetTrace.Finding

open StylesheetTrace.Text

/-- The root elements of documents: too general to localise a finding. -/
def rootElements : List String :=
  ["Invoice", "CreditNote", "DebitNote", "Order", "OrderResponse", "DespatchAdvice",
   "ReceiptAdvice", "Catalogue", "ApplicationResponse"]

/-- The text after a namespace in braces, which may be missing. -/
def skipBraces (s : List Char) : List Char :=
  match s with
  | '\x7b' :: t => (afterFirst? ['\x7d'] t).getD s
  | _ => s

/-- An ASCII letter, digit, `_` or `-`. -/
def isNameChar (c : Char) : Bool :=
  c.isAlphanum || c == '_' || c == '-'

/-- An element name: an ASCII letter and name characters after it. -/
def elementName? : Reader (List Char) :=
  word? Char.isAlpha isNameChar

/-- A name character, or one that agrees with a letter regardless of case. -/
def isCaselessNameChar (c : Char) : Bool :=
  isCaselessAlphanum c || c == '_' || c == '-'

/-- An element name before a closing apostrophe, of letters regardless of case. -/
def nameInQuotes? : Reader (List Char) := fun s => do
  let (name, rest) ← word? isCaselessLetter isCaselessNameChar s
  let rest ← after? ['\''] rest
  some (name, rest)

/-- A prefix and its colon, of characters regardless of case. -/
def afterCaselessPrefix? (s : List Char) : Option (List Char) :=
  (run? isCaselessNameChar s).bind fun (_, rest) => after? [':'] rest

/-- The word `Element` in any case and a qualified name in apostrophes. -/
def schemaElement? : Reader (List Char) := fun s => do
  let s ← afterCaseless? "element".toList s
  let (_, s) ← run? isBlank s
  let s ← after? ['\''] s
  let s := skipBraces s
  ((afterCaselessPrefix? s).bind nameInQuotes?).or (nameInQuotes? s)

/-- Texts as strings, each once, in the order of their first occurrence. -/
def distinct (names : List (List Char)) : List String :=
  (names.map String.ofList).eraseDups

/-- The element that the message of a schema validator names. -/
def schemaNames (message : List Char) : List String :=
  ((firstForm? schemaElement? message).map String.ofList).toList

/-- The prefixes of the elements of business documents. -/
def documentPrefixes : List String := ["cbc", "cac", "ubl", "ext"]

/-- A document prefix, its colon and an element name. -/
def mention? : Reader (List Char) := fun s =>
  (documentPrefixes.findSome? fun p => after? (p.toList ++ [':']) s).bind elementName?

/-- A word character or a colon. -/
def isQualifiedChar (c : Char) : Bool :=
  isWord c || c == ':'

/-- A mention that begins a run of word characters and colons, or such a run without a mention at
its beginning. -/
def mentionOrRun? : Reader (Option (List Char)) := fun s =>
  match mention? s with
  | some (name, rest) => some (some name, rest)
  | none => (run? isQualifiedChar s).map fun (_, rest) => (none, rest)

/-- The elements mentioned with a document prefix. -/
def prefixedNames (message : List Char) : List String :=
  distinct ((collect mentionOrRun? message).filterMap id)

/-- A namespace in braces and what `r` reads behind it. -/
def braced? {α : Type} (r : Reader α) : Reader α
  | '\x7b' :: s => (afterFirst? ['\x7d'] s).bind r
  | _ => none

/-- The word `Expected` and, later in its line, a name behind a namespace in braces. -/
def expectedElement? : Reader (List Char) := fun s =>
  (after? "Expected".toList s).bind (inLine? (braced? elementName?))

/-- The elements that the message of a schema validator expects. -/
def expectedNames (message : List Char) : List String :=
  distinct (collect expectedElement? message)

/-- The phrase `should not include the`, with any of its verbs and in any case, and the rest of its
line. -/
def pathPhrase? : Reader (List Char) := fun s => do
  let s ← ["should", "shall", "must"].findSome? fun verb => afterCaseless? verb.toList s
  let s ← afterCaseless? " not include the ".toList s
  let path := s.takeWhile (· != '\n')
  if path.isEmpty then none else some (path, s.drop path.length)

/-- A punctuation mark that may surround a word. -/
def isPunctuation (c : Char) : Bool :=
  ['.', ',', ';', ':', '(', ')', '\'', '"'].contains c

/-- A capital and two more letters at least, all ASCII. -/
def isPathWord : List Char → Bool
  | c :: s => c.isUpper && s.all Char.isAlpha && decide (2 ≤ s.length)
  | [] => false

/-- The elements of a path that a message spells in words, the last one first. -/
def pathNames (message : List Char) : List String :=
  match firstForm? pathPhrase? message with
  | none => []
  | some path =>
    distinct (((runsOf (fun c => !isBlank c) path).map (trimWhile isPunctuation)).filter
      isPathWord).reverse

/-- Two or more parts, each a capital and small letters, all ASCII. -/
def isCompound (w : List Char) : Bool :=
  w.all Char.isAlpha && (w.head?.elim false Char.isUpper) &&
    ((w.zip (w.drop 1 ++ [' '])).all fun (a, b) => !a.isUpper || b.isLower) &&
    decide (2 ≤ w.countP Char.isUpper)

/-- The compound capitalised words of a message. -/
def compoundNames (message : List Char) : List String :=
  distinct ((runsOf isWord message).filter isCompound)

/-- What the six strategies find, in the order in which they are tried. -/
def strategies (table : RuleTable) (message : String) (ruleId : Option String) :
    List (List String) :=
  let cs := message.toList
  [table.targets ruleId, schemaNames cs, prefixedNames cs, expectedNames cs, pathNames cs,
   compoundNames cs]

/-- The names other than roots, each once. -/
def specific (roots names : List String) : List String :=
  names.eraseDups.filter fun n => !roots.contains n

/-- The elements that a message is about, the most specific first: those of the first strategy that
names any. -/
def names (table : RuleTable) (roots : List String) (message : String) (ruleId : Option String) :
    List String :=
  (((strategies table message ruleId).map (specific roots)).find? fun ns => !ns.isEmpty).getD []

end StylesheetTrace.Finding
