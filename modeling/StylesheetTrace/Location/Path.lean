import StylesheetTrace.Entity.Reference
import StylesheetTrace.Text.Lines
import StylesheetTrace.Markup.Tag

/-!
# Location paths

A validator reports the place of a finding as a path of element steps, `/Invoice/cac:Party[2]`.
The dialects differ in how they qualify a name: by a prefix, by `*:`, by a predicate on
`namespace-uri()` behind the name, or by `Q` and the namespace in braces before it.  All qualifiers
are dropped; a step keeps its local name and its index among the elements of that name, which is 1
when it is left out.  Attribute steps and node tests name no element and are skipped.
-/

namespace StylesheetTrace.Location

open StylesheetTrace.Text StylesheetTrace.Entity StylesheetTrace.Markup

/-- An element step. -/
structure Step where
  /-- The local name of the element. -/
  name : String
  /-- Its index among the elements of that name, from 1. -/
  index : Nat
  deriving Repr, DecidableEq

/-- The text after a string in quotes of either kind. -/
def afterQuoted? : List Char → Option (List Char)
  | '\'' :: s => afterFirst? ['\''] s
  | '"' :: s => afterFirst? ['"'] s
  | _ => none

/-- A predicate that fixes the namespace of a step. -/
def namespacePredicate? : Reader Unit
  | '[' :: s => do
    let s ← after? "namespace-uri()".toList (s.dropWhile isBlank)
    let s ← after? ['='] (s.dropWhile isBlank)
    let s ← afterQuoted? (s.dropWhile isBlank)
    let s ← after? [']'] (s.dropWhile isBlank)
    some ((), s)
  | _ => none

/-- A namespace in braces that qualifies the name behind it. -/
def namespaceBraces? : Reader Unit
  | 'Q' :: '\x7b' :: s => (afterFirst? ['\x7d'] s).map fun rest => ((), rest)
  | _ => none

/-- A character of the prefix of a step, the wildcard included. -/
def isStepPrefixChar (c : Char) : Bool :=
  isPrefixChar c || c == '*'

/-- The digits of an index in brackets. -/
def indexDigits? : List Char → Option (List Char)
  | '[' :: s =>
    match s.dropWhile isDigit with
    | ']' :: _ => if (s.takeWhile isDigit).isEmpty then none else some (s.takeWhile isDigit)
    | _ => none
  | _ => none

/-- The index that follows a name. -/
def indexAfter (s : List Char) : Except TooLong Nat :=
  match indexDigits? s with
  | some ds => (readDigits ds).map (max · 1)
  | none => .ok 1

/-- The element step that a part of a path holds, if it holds one. -/
def stepOf? (part : List Char) : Except TooLong (Option Step) :=
  if part.isEmpty || part.head? == some '@' || part.contains '(' then .ok none
  else
    match ((afterPrefix? isStepPrefixChar part).bind name?).or (name? part) with
    | some (name, rest) => (indexAfter rest).map fun k => some ⟨String.ofList name, k⟩
    | none => .ok none

/-- The path without its namespace qualifiers, references replaced first. -/
def unqualified (path : List Char) : Except TooLong (List Char) :=
  (unescape path).map fun s => erase namespaceBraces? (erase namespacePredicate? s)

/-- The element steps of a location path. -/
def steps (path : String) : Except TooLong (List Step) := do
  let s ← unqualified path.toList
  let found ← ((splitOn '/' s).map strip).mapM stepOf?
  pure (found.filterMap id)

end StylesheetTrace.Location
