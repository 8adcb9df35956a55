/-!
# Lines

A text is cut into lines at each line feed, and a carriage return directly before the feed belongs
to the line end.  The wider set of line ends, which a program's log may use, holds the other
vertical separators too; there a line end at the very end starts no further line.
-/

namespace StylesheetTrace.Text

/-- The parts of a text between the characters that satisfy `p`: one more than there are of those.
-/
def splitWhere (p : Char → Bool) (s : List Char) : List (List Char) :=
  s.foldr
    (fun c acc =>
      if p c then [] :: acc
      else match acc with
        | part :: rest => (c :: part) :: rest
        | [] => [[c]])
    [[]]

/-- The parts of a text between the occurrences of a character. -/
def splitOn (d : Char) (s : List Char) : List (List Char) :=
  splitWhere (· == d) s

/-- The maximal runs of characters in `p`. -/
def runsOf (p : Char → Bool) (s : List Char) : List (List Char) :=
  (splitWhere (fun c => !p c) s).filter fun run => !run.isEmpty

/-- The line without a carriage return at its end. -/
def dropReturn (line : List Char) : List Char :=
  if line.getLast? == some '\r' then line.dropLast else line

/-- The lines of a text that ends its lines with a line feed, or with a carriage return and a line
feed.  The last line has no end of its own and keeps its carriage return. -/
def lines (s : List Char) : List (List Char) :=
  (splitOn '\n' s).foldr
    (fun line acc => if acc.isEmpty then [line] else dropReturn line :: acc)
    []

/-- The lines of a text, as strings. -/
def linesOf (s : String) : List String :=
  (lines s.toList).map String.ofList

/-- The lines joined by line feeds. -/
def joinLines (ls : List String) : String :=
  "\n".intercalate ls

/-- A vertical separator of any kind. -/
def isLineEnd (c : Char) : Bool :=
  let n := c.toNat
  decide ((10 ≤ n ∧ n ≤ 13) ∨ (28 ≤ n ∧ n ≤ 30) ∨ n = 0x85 ∨ n = 0x2028 ∨ n = 0x2029)

/-- Each carriage return that a line feed follows is left out.  A feed takes one return with it, so
that it is kept apart whether the text read so far begins with a feed that has none yet. -/
def joinReturns (s : List Char) : List Char :=
  (s.foldr
    (fun c acc => if c == '\r' && acc.2 then (acc.1, false) else (c :: acc.1, c == '\n'))
    (([], false) : List Char × Bool)).1

/-- The lines of a text whose lines may end with any vertical separator. -/
def anyLines (s : List Char) : List (List Char) :=
  let parts := splitWhere isLineEnd (joinReturns s)
  if parts.getLast? == some [] then parts.dropLast else parts

/-- Carriage returns, alone or before a line feed, read as line feeds. -/
def normalizeLineEnds (s : List Char) : List Char :=
  (joinReturns s).map fun c => if c == '\r' then '\n' else c

end StylesheetTrace.Text
