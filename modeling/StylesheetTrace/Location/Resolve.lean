import StylesheetTrace.Location.Path
import StylesheetTrace.Location.Extent

/-!
# The line of a location path

Each step of a path is searched for inside the extent of the element that the step before it found.
The line of the path is the line that opens the deepest element found.
-/

namespace StylesheetTrace.Location

open StylesheetTrace.Text

/-- The extents found for the steps, up to the first step that is not found, in the lines from
`first` to `last`. -/
def trailIn (lines : List String) : List Step → Int → Int → List Extent
  | [], _, _ => []
  | step :: rest, first, last =>
    match findExtent step.name step.index lines first last with
    | some e => e :: trailIn lines rest (e.first + 1) e.last
    | none => []

/-- The extents found for the steps of a path, up to the first step that is not found. -/
def trail (path : List Step) (lines : List String) : List Extent :=
  trailIn lines path 0 (lines.length - 1)

/-- The line of the deepest step that is found, counted from 1. -/
def locate? (path : List Step) (lines : List String) : Option Nat :=
  (trail path lines).getLast?.map fun e => e.first + 1

/-- The line of a location path, counted from 1, or `fallback` when not even the first step is
found. -/
def resolve (path : String) (lines : List String) (fallback : Int) : Except TooLong Int :=
  (steps path).map fun ss => (locate? ss lines).elim fallback Int.ofNat

end StylesheetTrace.Location
