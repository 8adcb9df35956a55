/-!
# Reading forms in a text

A reader recognises one form at the head of a text and returns what it read with the text that is
left.  From one reader come the leftmost form of a text, and the cut of a whole text into its forms
and the characters that stand outside them.
-/

namespace StylesheetTrace.Text

/-- What was read at the head of a text, and the text left after it. -/
abbrev Reader (α : Type) := List Char → Option (α × List Char)

/-- The text after the word `w`. -/
def after? (w s : List Char) : Option (List Char) :=
  w.isPrefixOf? s

/-- The text after the first occurrence of `w`. -/
def afterFirst? (w : List Char) : List Char → Option (List Char)
  | [] => after? w []
  | c :: s =>
    match after? w (c :: s) with
    | some rest => some rest
    | none => afterFirst? w s

/-- The part of a text that stands before its tail `rest`. -/
def before (s rest : List Char) : List Char :=
  s.take (s.length - rest.length)

/-- The text before the first occurrence of `w` and the text after it, `found` being what was passed
over so far, in reverse. -/
def cutFrom? (w : List Char) : List Char → List Char → Option (List Char × List Char)
  | [], found => (after? w []).map fun rest => (found.reverse, rest)
  | c :: s, found =>
    match after? w (c :: s) with
    | some rest => some (found.reverse, rest)
    | none => cutFrom? w s (c :: found)

/-- The text before the first occurrence of `w` and the text after it. -/
def cut? (w s : List Char) : Option (List Char × List Char) :=
  cutFrom? w s []

/-- The word `w` occurs in the text. -/
def occurs (w s : List Char) : Bool :=
  (afterFirst? w s).isSome

/-- A word: a character in `first` and those in `rest` that follow it. -/
def word? (first rest : Char → Bool) : Reader (List Char)
  | c :: s => if first c then some (c :: s.takeWhile rest, s.dropWhile rest) else none
  | [] => none

/-- Characters in `p`, one at least. -/
def run? (p : Char → Bool) : Reader (List Char) :=
  word? p p

/-- The leftmost form that begins before the end of the line. -/
def inLine? {α : Type} (r : Reader α) : Reader α
  | [] => r []
  | c :: s =>
    match r (c :: s) with
    | some found => some found
    | none => if c == '\n' then none else inLine? r s

/-- The tail of a text that begins with the last occurrence of `w`; `found` is the one found so
far. -/
def lastTailFrom? (w : List Char) : List Char → Option (List Char) → Option (List Char)
  | [], found => found
  | c :: s, found => lastTailFrom? w s (if (after? w (c :: s)).isSome then some (c :: s) else found)

/-- The tail of a text that begins with the last occurrence of a word. -/
def lastTail? (w s : List Char) : Option (List Char) :=
  lastTailFrom? w s none

/-- The text before the leftmost form, then the form and the text after it; `found` is what was
passed over so far, in reverse. -/
def leftmostFrom? {α : Type} (r : Reader α) :
    List Char → List Char → Option (List Char × α × List Char)
  | [], found => (r []).map fun form => (found.reverse, form)
  | c :: s, found =>
    match r (c :: s) with
    | some form => some (found.reverse, form)
    | none => leftmostFrom? r s (c :: found)

/-- The text before the leftmost form, then the form and the text after it. -/
def leftmost? {α : Type} (r : Reader α) (s : List Char) : Option (List Char × α × List Char) :=
  leftmostFrom? r s []

/-- The leftmost form of a text. -/
def firstForm? {α : Type} (r : Reader α) (s : List Char) : Option α :=
  (leftmost? r s).map fun found => found.2.1

/-- Some form occurs in the text. -/
def hasForm {α : Type} (r : Reader α) (s : List Char) : Bool :=
  (leftmost? r s).isSome

/-- A form of a text, or a character outside every form. -/
inductive Piece (α : Type) where
  | plain (c : Char)
  | form (a : α)
  deriving Repr, DecidableEq

namespace Piece

/-- The form, if the piece is one. -/
def form? {α : Type} : Piece α → Option α
  | plain _ => none
  | form a => some a

/-- The character, if the piece stands outside every form. -/
def plain? {α : Type} : Piece α → Option Char
  | plain c => some c
  | form _ => none

end Piece

/-- The cut of a text from the left, with the pieces found so far in reverse.  Each piece takes at
least one character, so that a bound of the text's length suffices. -/
def piecesFrom {α : Type} (r : Reader α) : Nat → List Char → List (Piece α) → List (Piece α)
  | 0, _, found => found.reverse
  | _ + 1, [], found => found.reverse
  | n + 1, c :: s, found =>
    match r (c :: s) with
    | some (a, rest) => piecesFrom r n rest (.form a :: found)
    | none => piecesFrom r n s (.plain c :: found)

/-- The text cut into its forms, leftmost first and without overlap, and the characters between. -/
def pieces {α : Type} (r : Reader α) (s : List Char) : List (Piece α) :=
  piecesFrom r s.length s []

/-- The forms of a text, leftmost first and without overlap. -/
def collect {α : Type} (r : Reader α) (s : List Char) : List α :=
  (pieces r s).filterMap Piece.form?

/-- The text without its forms. -/
def erase {α : Type} (r : Reader α) (s : List Char) : List Char :=
  (pieces r s).filterMap Piece.plain?

/-- How many forms a text holds. -/
def count {α : Type} (r : Reader α) (s : List Char) : Nat :=
  (collect r s).length

end StylesheetTrace.Text
