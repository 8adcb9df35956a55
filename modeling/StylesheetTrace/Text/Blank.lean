/-!
# Blanks

The blanks are the white space of Unicode together with the four information separators.  A text is
stripped by dropping the blanks at both ends, and collapsed by writing each run of blanks as one
space.
-/

namespace StylesheetTrace.Text

/-- White space of any script, the line ends and the information separators U+001C to U+001F. -/
def isBlank (c : Char) : Bool :=
  let n := c.toNat
  decide ((9 ≤ n ∧ n ≤ 13) ∨ (28 ≤ n ∧ n ≤ 32) ∨ n = 0x85 ∨ n = 0xa0 ∨ n = 0x1680 ∨
    (0x2000 ≤ n ∧ n ≤ 0x200a) ∨ n = 0x2028 ∨ n = 0x2029 ∨ n = 0x202f ∨ n = 0x205f ∨ n = 0x3000)

/-- The text without the characters at its end that satisfy `p`. -/
def dropEndWhile (p : Char → Bool) (s : List Char) : List Char :=
  (s.reverse.dropWhile p).reverse

/-- The text without the characters at its two ends that satisfy `p`. -/
def trimWhile (p : Char → Bool) (s : List Char) : List Char :=
  dropEndWhile p (s.dropWhile p)

/-- The text without the blanks at its two ends. -/
def strip (s : List Char) : List Char :=
  trimWhile isBlank s

/-- Every run of blanks written as one space. -/
def collapse (s : List Char) : List Char :=
  s.foldr
    (fun c acc =>
      if isBlank c then (if acc.head? == some ' ' then acc else ' ' :: acc) else c :: acc)
    []

end StylesheetTrace.Text
