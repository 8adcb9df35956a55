import StylesheetTrace.Command

/-!
# The program

Runs a command line on the files of the machine and in its environment.  The server of the service
is left to the caller: a start of it is written to the standard error.
-/

namespace StylesheetTrace.Command

/-- The problem with a file that an error of the machine stands for. -/
def problemOf : IO.Error → FileProblem
  | .permissionDenied _ _ _ => .denied
  | .inappropriateType _ _ _ => .isDirectory
  | .invalidArgument _ _ _ => .nameTooLong
  | _ => .missing

/-- An action on a file, with its error told by the path that was given. -/
def onFile {α : Type} (p : Path) (action : IO α) : IO (Except FileError α) := do
  match ← action.toBaseIO with
  | .ok a => pure (.ok a)
  | .error e => pure (.error ⟨problemOf e, p.text⟩)

/-- The host whose files are those of the machine. -/
def machineHost : IO (Host IO) := do
  let directory ← IO.currentDir
  pure
    { directory := .ofText directory.toString
      read := fun p => onFile p do
        return (← IO.FS.readBinFile p.text).toList.map UInt8.toNat
      write := fun p bytes => onFile p
        (IO.FS.writeBinFile p.text (ByteArray.mk (bytes.map Nat.toUInt8).toArray)) }

/-- The variable that an entry of the environment sets. -/
def binding? (entry : List Char) : Option (String × String) :=
  match atEquals entry with
  | (name, some value) => some (String.ofList name, String.ofList value)
  | _ => none

/-- The environment of the process. -/
def environment : IO (List (String × String)) := do
  match ← (IO.FS.readBinFile "/proc/self/environ").toBaseIO with
  | .error _ => pure []
  | .ok bytes =>
    match Text.Utf8.decode (bytes.toList.map UInt8.toNat) with
    | .error _ => pure []
    | .ok s => pure ((Text.splitOn '\x00' s).filterMap binding?)

/-- Writes a transcript. -/
def publish (t : Transcript) : IO Unit := do
  IO.print t.output
  IO.eprint t.logText
  for s in t.starts do
    IO.eprintln s!"server on {s.host}:{s.port}"

end StylesheetTrace.Command

open StylesheetTrace StylesheetTrace.Command

/-- Runs the program and returns its exit code. -/
def main (args : List String) : IO UInt32 := do
  match ← Command.run (← machineHost) (← environment) args with
  | .stopped s =>
    IO.print s.output
    IO.eprint s.complaint
    pure s.code.toUInt32
  | .finished code t =>
    publish t
    pure code.toUInt32
  | .broken f t =>
    publish t
    IO.eprintln f.message
    pure 1
