import StylesheetTrace.FileTree.Path
import StylesheetTrace.Text.Quoted
import StylesheetTrace.Text.Utf8

/-!
# Files

The files that a command reads and writes, as bytes under their paths.  A directory exists where a
file stands below it, and so do the working directory and those above it.
-/

namespace StylesheetTrace

open StylesheetTrace.Text

/-- Why a file can not be opened. -/
inductive FileProblem where
  | missing
  | notDirectory
  | isDirectory
  | nameTooLong
  | denied
  deriving Repr, DecidableEq

namespace FileProblem

/-- The number of the problem. -/
def number : FileProblem → Nat
  | missing => 2
  | denied => 13
  | notDirectory => 20
  | isDirectory => 21
  | nameTooLong => 36

/-- The wording of the problem. -/
def label : FileProblem → String
  | missing => "No such file or directory"
  | denied => "Permission denied"
  | notDirectory => "Not a directory"
  | isDirectory => "Is a directory"
  | nameTooLong => "File name too long"

end FileProblem

/-- A file can not be opened. -/
structure FileError where
  /-- Why it can not. -/
  problem : FileProblem
  /-- The path that was given. -/
  path : String
  deriving Repr, DecidableEq

/-- The wording of the error. -/
def FileError.message (e : FileError) : String :=
  s!"[Errno {e.problem.number}] {e.problem.label}: {quoted e.path}"

/-- The files that a command can reach. -/
structure FileTree where
  /-- The names from the root to the working directory. -/
  directory : Path
  /-- The bytes of the files, each under the names from the root to it. -/
  files : List (List String × List Nat)
  deriving Repr, DecidableEq

/-- What stands at a place of a tree. -/
inductive FileNode where
  | directory
  | file (bytes : List Nat)
  | nothing
  deriving Repr, DecidableEq

namespace FileTree

/-- What stands at a place. -/
def nodeAt (t : FileTree) (place : List String) : FileNode :=
  match t.files.lookup place with
  | some bytes => .file bytes
  | none =>
    let above (names : List String) : Bool := place.isPrefixOf names
    if above t.directory.names || t.files.any fun f => above f.1 then .directory else .nothing

/-- How many bytes a name may have. -/
def maxNameSize : Nat := 255

/-- Goes from a place along further names: two points lead one up, and all but the last name must
lead to directories. -/
def walk (t : FileTree) : List String → List String → Except FileProblem (List String)
  | place, [] => .ok place
  | place, name :: rest =>
    match t.nodeAt place with
    | .nothing => .error .missing
    | .file _ => .error .notDirectory
    | .directory =>
      if name.utf8ByteSize > maxNameSize then .error .nameTooLong
      else walk t (if name == ".." then place.dropLast else place ++ [name]) rest

/-- How many bytes the text of a path may have. -/
def maxPathSize : Nat := 4095

/-- The place of a path. -/
def place (t : FileTree) (p : Path) : Except FileError (List String) :=
  if p.text.utf8ByteSize > maxPathSize then .error ⟨.nameTooLong, p.text⟩
  else (t.walk [] (Path.absolute t.directory p).names).mapError fun e => ⟨e, p.text⟩

/-- The bytes of a file. -/
def read (t : FileTree) (p : Path) : Except FileError (List Nat) := do
  match t.nodeAt (← t.place p) with
  | .file bytes => pure bytes
  | .directory => throw ⟨.isDirectory, p.text⟩
  | .nothing => throw ⟨.missing, p.text⟩

/-- The files with the bytes of one of them. -/
def put (files : List (List String × List Nat)) (place : List String) (bytes : List Nat) :
    List (List String × List Nat) :=
  if files.any fun f => f.1 == place then
    files.map fun f => if f.1 == place then (place, bytes) else f
  else files ++ [(place, bytes)]

/-- The tree with bytes written to a file, which may be new. -/
def write (t : FileTree) (p : Path) (bytes : List Nat) : Except FileError FileTree := do
  let place ← t.place p
  match t.nodeAt place with
  | .directory => throw ⟨.isDirectory, p.text⟩
  | _ => pure { t with files := put t.files place bytes }

/-- The files of this tree that another tree has not or has with other bytes. -/
def changedFrom (t old : FileTree) : List (List String × List Nat) :=
  t.files.filter fun f => old.files.lookup f.1 != some f.2

end FileTree

end StylesheetTrace
