import StylesheetTrace.Markup.Tag

/-!
# The lines that an element covers

The extent of an element runs from the line that opens it to the first line at which the tags of its
name balance, counted from the opening line on.  An element that is never closed runs to the end of
the window that is searched.
-/

namespace StylesheetTrace.Location

open StylesheetTrace.Text StylesheetTrace.Markup

/-- The lines that an element covers, counted from 0. -/
structure Extent where
  /-- The line of its start tag. -/
  first : Nat
  /-- The line on which its end was found. -/
  last : Nat
  deriving Repr, DecidableEq

/-- The line holds a tag that opens `name`. -/
def opensIn (name line : String) : Bool :=
  hasForm (opening? isPrefixChar name.toList) line.toList

/-- By how much a line changes the depth of nesting in elements of one name: its tags that open the
element, less those that close it at once, less its end tags. -/
def depthDelta (name line : String) : Int :=
  (count (opening? isPrefixChar name.toList) line.toList : Int) -
    count (selfClosing? isPrefixChar name.toList) line.toList -
    count (closing? isPrefixChar name.toList) line.toList

/-- The line, from line `i` on, at which a depth falls to zero or below; `lines` stand after `i`.
Without such a line it is the last one. -/
def closingLine (name : String) (depth : Int) (i : Nat) : List String → Nat
  | [] => i
  | line :: lines =>
    if depth ≤ 0 then i
    else closingLine name (depth + depthDelta name line) (i + 1) lines

/-- The extent of the `n`-th of the lines that open `name`; the first line has number `i`. -/
def extentFrom (name : String) (n i : Nat) : List String → Option Extent
  | [] => none
  | line :: lines =>
    if opensIn name line then
      if n = 1 then some ⟨i, closingLine name (depthDelta name line) i lines⟩
      else extentFrom name (n - 1) (i + 1) lines
    else extentFrom name n (i + 1) lines

/-- The extent of the element opened by the `n`-th line that opens `name`, among the lines from
`first` to `last`, both included and cut to the lines there are. -/
def findExtent (name : String) (n : Nat) (lines : List String) (first last : Int) :
    Option Extent :=
  let start := first.toNat
  let stop := (min last (lines.length - 1) + 1).toNat
  extentFrom name n start ((lines.drop start).take (stop - start))

end StylesheetTrace.Location
