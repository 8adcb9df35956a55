/-!
# Halves of surrogate pairs

Code units of sixteen bits write a character above U+FFFF as a pair of surrogates.  An escape can
name half of such a pair alone, which is no character.  A text keeps such a half as a stand-in from
a plane of Unicode without any characters, and shows it as an escape again where it is written.  So
one of the code points from U+DD800 to U+DDFFF, to which no character is assigned, can not be told
from the half for which it stands in: a text that holds one itself counts as a text with the half.
-/

namespace StylesheetTrace.Text

/-- The code point is the first half of a surrogate pair. -/
def isHighSurrogate (n : Nat) : Bool := decide (0xd800 ≤ n ∧ n ≤ 0xdbff)

/-- The code point is the second half of a surrogate pair. -/
def isLowSurrogate (n : Nat) : Bool := decide (0xdc00 ≤ n ∧ n ≤ 0xdfff)

/-- The code point is half of a surrogate pair. -/
def isSurrogate (n : Nat) : Bool := isHighSurrogate n || isLowSurrogate n

/-- The character of a surrogate pair. -/
def joinedPair (high low : Nat) : Char :=
  Char.ofNat (0x10000 + (high - 0xd800) * 0x400 + (low - 0xdc00))

/-- How far the stand-ins are away from the halves that they stand for. -/
def standInOffset : Nat := 0xd0000

/-- The character of a code point, or a stand-in for half of a surrogate pair. -/
def charOrStandIn (n : Nat) : Char := Char.ofNat (if isSurrogate n then standInOffset + n else n)

/-- The half of a surrogate pair for which a character stands in. -/
def halfPair? (c : Char) : Option Nat :=
  let n := c.toNat - standInOffset
  if isSurrogate n then some n else none

end StylesheetTrace.Text
