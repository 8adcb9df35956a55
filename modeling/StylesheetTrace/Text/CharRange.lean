/-!
# Sets of characters given by ranges

A property of characters that a standard fixes is kept as a list of inclusive ranges of code points.
-/

namespace StylesheetTrace.Text

/-- The character's code point lies in one of the inclusive ranges. -/
def inRanges (ranges : List (Nat × Nat)) (c : Char) : Bool :=
  ranges.any fun r => decide (r.1 ≤ c.toNat ∧ c.toNat ≤ r.2)

end StylesheetTrace.Text
