import StylesheetTrace.Text.Lines

/-!
# Paths

A path is a row of names, from the root or from the working directory.  Empty names and single
points say nothing and are left out; two points are kept, since the name before them may be a link.
-/

namespace StylesheetTrace

open StylesheetTrace.Text

/-- A path. -/
structure Path where
  /-- The slashes with which it begins. -/
  root : String
  /-- The names behind them. -/
  names : List String
  deriving Repr, DecidableEq

namespace Path

/-- A name that says something. -/
def isName (s : List Char) : Bool := !s.isEmpty && s != ['.']

/-- The slashes with which a path begins: two of them mean another root than one or more. -/
def rootOf (s : List Char) : String :=
  match s with
  | '/' :: '/' :: '/' :: _ => "/"
  | '/' :: '/' :: _ => "//"
  | '/' :: _ => "/"
  | _ => ""

/-- The path that a text writes. -/
def ofText (s : String) : Path :=
  ⟨rootOf s.toList, ((splitOn '/' s.toList).filter isName).map String.ofList⟩

/-- The path begins at the root. -/
def isAbsolute (p : Path) : Bool := !p.root.isEmpty

/-- The text of a path. -/
def text (p : Path) : String :=
  if p.root.isEmpty && p.names.isEmpty then "." else p.root ++ "/".intercalate p.names

/-- The path from the root, for a path that may begin in the directory `d`. -/
def absolute (d p : Path) : Path :=
  if p.isAbsolute then p else ⟨d.root, d.names ++ p.names⟩

end Path

end StylesheetTrace
