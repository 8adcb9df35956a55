import StylesheetTrace.Answer
import StylesheetTrace.Command.Arguments
import StylesheetTrace.Command.Failure
import StylesheetTrace.Json.Writer
import StylesheetTrace.Run.Record
import StylesheetTrace.Settings
import StylesheetTrace.Stylesheet.Instrument

/-!
# Running commands

A command reads files, writes files and a transcript, and ends with an exit code.  The files are
those of a host, so that a command runs in the same way on a tree of files in memory.  What was
written before a command fails remains.
-/

namespace StylesheetTrace.Command

open StylesheetTrace.Text

/-- Where a command runs. -/
structure Host (m : Type → Type) where
  /-- The working directory. -/
  directory : Path
  /-- The bytes of a file, unless it can not be opened. -/
  read : Path → m (Except FileError (List Nat))
  /-- The bytes of a file are replaced, unless it can not be opened. -/
  write : Path → List Nat → m (Except FileError Unit)

/-- The host whose files are those of a tree. -/
def treeHost (directory : Path) : Host (StateM FileTree) where
  directory := directory
  read p := do return (← get).read p
  write p bytes := do
    match (← get).write p bytes with
    | .ok t => set t; return .ok ()
    | .error e => return .error e

/-- A start of the server of the service. -/
structure ServerStart where
  /-- The name under which the server listens. -/
  host : String
  /-- The port on which it listens. -/
  port : Int
  /-- The name of the least level of its log, in small letters. -/
  logLevel : String
  deriving Repr, DecidableEq

/-- What a command leaves behind besides files. -/
structure Transcript where
  /-- The text on the standard output. -/
  output : String
  /-- What was noted before there was a log. -/
  notices : List String
  /-- The records that were kept. -/
  log : List LogRecord
  /-- The starts of the server. -/
  starts : List ServerStart
  deriving Repr, DecidableEq

namespace Transcript

/-- Nothing but some notices yet. -/
def ofNotices (notices : List String) : Transcript := ⟨"", notices, [], []⟩

/-- The lines of the notices and of the log. -/
def logText (t : Transcript) : String :=
  String.join (t.notices.map (· ++ "\n") ++ t.log.map LogRecord.line)

end Transcript

/-- The work of a command on a host. -/
abbrev Work (m : Type → Type) := ExceptT Failure (StateT Transcript m)

section

variable {m : Type → Type} [Monad m]

/-- Work that a pure function does, or fails to do. -/
def attempt {ε α : Type} (f : ε → Failure) (r : Except ε α) : Work m α :=
  match r with
  | .ok a => pure a
  | .error e => throw (f e)

/-- Writes to the standard output. -/
def print (s : String) : Work m Unit := modify fun t => { t with output := t.output ++ s }

/-- Adds records to the log. -/
def note (rs : List LogRecord) : Work m Unit := modify fun t => { t with log := t.log ++ rs }

/-- A path that may be opened. -/
def checkPath (p : Path) : Work m Unit :=
  if p.text.toList.contains '\x00' then throw .nullByte else pure ()

/-- The text of a file, its line ends read as line feeds. -/
def readText (h : Host m) (p : Path) : Work m String := do
  checkPath p
  let bytes ← attempt .file (← h.read p)
  let s ← attempt .encoding (Utf8.decode bytes)
  pure (String.ofList (normalizeLineEnds s))

/-- Writes a text to a file. -/
def writeText (h : Host m) (p : Path) (s : String) : Work m Unit := do
  checkPath p
  attempt .file (← h.write p (Utf8.encode s))

end

/-- The part of the program that runs commands. -/
def logOrigin : String := "xsltrace.cli"

/-- What the commands share. -/
structure Context where
  /-- The settings, with the sentinel of the command line. -/
  settings : Settings
  /-- What was noted while the settings were read. -/
  notices : List String
  /-- The rank of the least level that is kept in the log. -/
  threshold : Nat

/-- A record of the commands, if it is kept. -/
def Context.record (c : Context) (level : LogLevel) (message : String) : List LogRecord :=
  [(⟨level, logOrigin, message⟩ : LogRecord)].filter (LogRecord.isKept c.threshold)

/-- A text with a line feed at its end. -/
def withLineEnd (s : String) : String :=
  if s.toList.getLast? == some '\n' then s else s ++ "\n"

/-- The result of a run as the command prints it. -/
def resultJson (r : RunResult) : Json :=
  .obj [("document_info", Answer.document? r.document), ("passed", Answer.verdicts r.verdicts),
    ("trace_entries", .nat r.output.entries.length),
    ("issues", .arr (r.traced.map Answer.traced)),
    ("suggestions", .arr (r.suggestions.map Answer.suggestion))]

/-- The exit code of a run: whether every validator passed. -/
def exitCode (r : RunResult) : Nat := if r.allPassed then 0 else 1

section

variable {m : Type → Type} [Monad m]

/-- Writes a text to the file that is given for an option. -/
def writeGiven (h : Host m) (given : Given Path) (s : String) (wrote : Path → List LogRecord) :
    Work m Unit :=
  match given with
  | .nothing => throw (.noFile "write_text")
  | .value p => do
    writeText h p s
    note (wrote p)

/-- Writes a text to a file, or to the standard output when no file is named. -/
def emit (h : Host m) (c : Context) (output : Option (Given Path)) (s : String) : Work m Unit :=
  match output with
  | none => print (withLineEnd s)
  | some given => writeGiven h given s fun p => c.record .info s!"Wrote {p.text}"

/-- Instruments a stylesheet. -/
def instrument (h : Host m) (c : Context) (program : Path) (output : Option (Given Path)) :
    Work m Nat := do
  let content ← readText h program
  let file := (Path.absolute h.directory program).text
  emit h c output (← attempt .marker (Stylesheet.instrument c.settings.sentinel file content))
  pure 0

/-- Splits a raw output into the clean output and the trace entries. -/
def split (h : Host m) (c : Context) (raw : Path) (output entries : Option (Given Path)) :
    Work m Nat := do
  let s ← readText h raw
  let s ← attempt (fun e => .input (.number e)) (Output.split c.settings.sentinel s)
  emit h c output s.text
  match entries with
  | none => pure 0
  | some given =>
    writeGiven h given (Json.arr (s.entries.map Answer.entry)).pretty fun p =>
      c.record .info s!"Wrote {s.entries.length} trace entries to {p.text}"
    pure 0

/-- The targets of rules by the settings: the default ones, overridden by a file if one is set. -/
def ruleTable (h : Host m) (s : Settings) : Work m RuleTable :=
  match s.rulesFile with
  | none => pure .default
  | some p => do attempt .rules (RuleTable.default.overrideBy (← readText h p).toList)

/-- How the settings let runs be traced. -/
def tracer (h : Host m) (s : Settings) : Work m Tracer :=
  return ⟨s.sentinel, s.reportLimit, ← ruleTable h s⟩

/-- The text of a file, if one is named. -/
def readText? (h : Host m) (p : Option Path) : Work m (Option String) :=
  match p with
  | none => pure none
  | some p => some <$> readText h p

/-- The report of assertions that is given for an option. -/
def readReport (h : Host m) : Given (Source × Path) → Work m ValidatorReport
  | .nothing => throw .noReport
  | .value (source, p) => return ⟨source, .svrl, ← readText h p⟩

/-- The schema log that is given for an option, as a list of reports. -/
def readLog (h : Host m) : Option (Given Path) → Work m (List ValidatorReport)
  | none => pure []
  | some .nothing => throw (.noFile "read_text")
  | some (.value p) => return [⟨.xsd, .xmllint, ← readText h p⟩]

/-- Traces the reports on a raw output. -/
def trace (h : Host m) (c : Context) (raw : Path) (reports : List (Given (Source × Path)))
    (schemaLog : Option (Given Path)) (program : Option Path) : Work m Nat := do
  let s ← readText h raw
  let assertions ← reports.mapM (readReport h)
  let reports := assertions ++ (← readLog h schemaLog)
  let stylesheet ← readText? h program
  let t ← tracer h c.settings
  note (t.records c.threshold s reports)
  let result ← attempt .input (t.run s reports stylesheet)
  print ((resultJson result).pretty ++ "\n")
  pure (exitCode result)

/-- The part of the program that reads files of variables. -/
def variablesOrigin : String := "dotenv.main"

/-- Starts the server of the service, which reads the settings once more. -/
def serve (c : Context) : Work m Nat := do
  let s := c.settings
  let again := c.notices.map (LogRecord.mk .warning variablesOrigin)
  let start : LogRecord := ⟨.info, "xsltrace.api",
    s!"xsltrace API Server v{version} starting (host={s.host}, port={s.effectivePort})"⟩
  note ((again ++ [start]).filter (LogRecord.isKept c.threshold))
  modify fun t =>
    { t with starts := t.starts ++ [⟨s.host, s.effectivePort, Settings.lower s.logLevel⟩] }
  pure 0

/-- Does what a command line asks for. -/
def perform (h : Host m) (c : Context) : Action → Work m Nat
  | .instrument program output => instrument h c program output
  | .split raw output entries => split h c raw output entries
  | .trace raw reports schemaLog program => trace h c raw reports schemaLog program
  | .serve => serve c

/-- The name of the file of variables in the working directory. -/
def variablesFile : Path := .ofText ".env"

/-- The text of the file of variables; a file that can not be opened counts as none. -/
def readVariables (h : Host m) : m (Except Failure (Option String)) := do
  match ← h.read variablesFile with
  | .error _ => pure (.ok none)
  | .ok bytes =>
    match Utf8.decode bytes with
    | .ok s => pure (.ok (some (String.ofList s)))
    | .error e => pure (.error (.encoding e))

/-- What is noted of a file of variables: the lines from which it can not be read. -/
def noticesOn (file : Option String) : List String :=
  ((file.map Dotenv.unreadableLines).getD []).map fun line =>
    s!"python-dotenv could not parse statement starting at line {line}"

/-- The context of a command: the settings of its environment and its file of variables, with the
sentinel that the command line gives unless it is empty. -/
def context (environment : List (String × String)) (file sentinel : Option String) :
    Except Failure Context :=
  match Settings.load ⟨[], environment, file⟩ with
  | .faulty faults => .error (.settings faults)
  | .valid s =>
    let s := { s with sentinel := (sentinel.filter fun x => !x.isEmpty).getD s.sentinel }
    match LogLevel.threshold? s.logLevel with
    | none => .error (.logLevel s.logLevel)
    | some threshold => .ok ⟨s, noticesOn file, threshold⟩

end

/-- How the program ends: at its command line, with an exit code, or broken off. -/
inductive Outcome where
  | stopped (s : Stop)
  | finished (code : Nat) (t : Transcript)
  | broken (f : Failure) (t : Transcript)
  deriving Repr, DecidableEq

/-- The outcome of work that ended or failed: a failure that is reported gives the exit code 2. -/
def outcomeOf (c : Context) (r : Except Failure Nat) (t : Transcript) : Outcome :=
  match r with
  | .ok code => .finished code t
  | .error f =>
    if f.isReported then .finished 2 { t with log := t.log ++ c.record .error f.message }
    else .broken f t

/-- Runs the program with its arguments. -/
def run {m : Type → Type} [Monad m] (h : Host m) (environment : List (String × String))
    (args : List String) : m Outcome := do
  match Invocation.read args with
  | .error s => pure (.stopped s)
  | .ok i =>
    match ← readVariables h with
    | .error f => pure (.broken f (.ofNotices []))
    | .ok file =>
      let t := Transcript.ofNotices (noticesOn file)
      match context environment file i.sentinel with
      | .error f => pure (.broken f t)
      | .ok c =>
        let (r, t) ← (perform h c i.action).run t
        pure (outcomeOf c r t)

end StylesheetTrace.Command
