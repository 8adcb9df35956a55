import StylesheetTrace.Command.Usage
import StylesheetTrace.FileTree.Path
import StylesheetTrace.Text.Blank
import StylesheetTrace.Text.Digit
import StylesheetTrace.Text.Scan

/-!
# Arguments

The words of a command line are first sorted into options and others, up to a word of two hyphens
behind which no word is an option.  Then they are read from the left: an option takes its value,
the first of the other words is what the scope requires, and what is left over is refused at the
end.  The command takes all words behind its name, and these are read in its own scope.
-/

namespace StylesheetTrace.Command

open StylesheetTrace.Text

/-- A value in the word of its option. -/
structure Attached where
  /-- The option is named by its letter. -/
  short : Bool
  /-- The characters of the value. -/
  value : List Char
  deriving Repr, DecidableEq

/-- A word of a command line. -/
inductive Word where
  | plain (s : String)
  | separator
  | flag (f : Flag) (attached : Option Attached)
  | unknown (s : String)
  deriving Repr, DecidableEq

/-- The text of a word that is no option. -/
def Word.text : Word → String
  | plain s | unknown s => s
  | separator => "--"
  | flag _ _ => ""

/-- A word that may be the value of an option in front of it. -/
def mayBeValue : Option Word → Bool
  | some (.plain _) => true
  | _ => false

/-- The text before the first equals sign, and the text behind it. -/
def atEquals (s : List Char) : List Char × Option (List Char) :=
  ((cut? ['='] s).map fun (name, value) => (name, some value)).getD (s, none)

/-- The value that is joined to an option by an equals sign. -/
def joined? (name : List Char) (value : Option (List Char)) : Option Attached :=
  value.map fun v => ⟨name[1]? != some '-', v⟩

/-- The options whose names begin like a long name, each with its full name. -/
def candidates (scope : Scope) (name : List Char) : List (String × Flag) :=
  scope.flagNames.filter fun n => name.isPrefixOf n.1.toList

/-- A digit in a word that looks like a negative number, and digits after a point. -/
def isNegativeNumber (s : List Char) : Bool :=
  let rest := (s.drop 1).dropWhile isDigit
  let ends (t : List Char) : Bool := t == [] || t == ['\n']
  s.head? == some '-' &&
    ((!((s.drop 1).takeWhile isDigit).isEmpty && ends rest) ||
      (rest.head? == some '.' && !((rest.drop 1).takeWhile isDigit).isEmpty &&
        ends ((rest.drop 1).dropWhile isDigit)))

/-- A word that names no known option. -/
def unmatched (s : String) : Word :=
  if isNegativeNumber s.toList || s.toList.contains ' ' then .plain s else .unknown s

/-- A word that begins with two hyphens and more: a long name may be cut short. -/
def longWord (scope : Scope) (s : String) : Except UsageError Word :=
  let (name, value) := atEquals s.toList
  match candidates scope name with
  | [] => .ok (unmatched s)
  | [(_, f)] => .ok (.flag f (joined? name value))
  | many => .error (.ambiguous s (many.map Prod.fst))

/-- A word that begins with one hyphen: a letter may be followed by its value. -/
def shortWord (scope : Scope) (s : String) : Word :=
  match scope.flag? (String.ofList (s.toList.take 2)) with
  | some f => .flag f (some ⟨true, s.toList.drop 2⟩)
  | none => unmatched s

/-- What a word is in front of the separator. -/
def word (scope : Scope) (s : String) : Except UsageError Word :=
  let (name, value) := atEquals s.toList
  match s.toList with
  | ['-'] => .ok (.plain s)
  | '-' :: _ =>
    match scope.flag? s, scope.flag? (String.ofList name) with
    | some f, _ => .ok (.flag f none)
    | none, some f => .ok (.flag f (joined? name value))
    | none, none => if s.toList[1]? == some '-' then longWord scope s else .ok (shortWord scope s)
  | _ => .ok (.plain s)

/-- What the words are. -/
def words (scope : Scope) : List String → Except UsageError (List Word)
  | [] => .ok []
  | s :: rest =>
    if s == "--" then .ok (.separator :: rest.map .plain)
    else do
      let w ← word scope s
      pure (w :: (← words scope rest))

/-- What is wrong with the text behind the letter of an option without value: it names further
options by their letters, of which one with a value takes the rest.  `followed` tells whether the
next word may be a value. -/
def letterFault? (scope : Scope) (followed : Bool) (f : Flag) : List Char → Option UsageError
  | [] => none
  | c :: rest =>
    match scope.flag? (String.ofList ['-', c]) with
    | none => some (.ignoredValue f (String.ofList (c :: rest)))
    | some g =>
      if g.hasValue then (if rest.isEmpty && !followed then some (.expectedValue g) else none)
      else letterFault? scope followed g rest

/-- What is wrong with the text that is attached to an option without value. -/
def attachedFault? (scope : Scope) (followed : Bool) (f : Flag) (a : Attached) :
    Option UsageError :=
  if a.short && !a.value.isEmpty then letterFault? scope followed f a.value
  else some (.ignoredValue f (String.ofList a.value))

/-- What an option without value leads to. -/
def stopFor (scope : Scope) : Flag → Stop
  | .version => .version
  | _ => .help scope

/-- The report that a value names by its validator and its file. -/
def report (value : String) : Except UsageError (Source × Path) :=
  match atEquals value.toList with
  | (_, none) | (_, some []) => .error (.noReport value)
  | (name, some file) =>
    match Source.ofName? (String.ofList ((strip name).map Char.toLower)) with
    | some source => .ok (source, .ofText (String.ofList file))
    | none => .error (.unknownSource (String.ofList name))

/-- What is given for an option: a value, or nothing, which two hyphens in its own word stand for.
-/
inductive Given (α : Type) where
  | value (a : α)
  | nothing
  deriving Repr, DecidableEq

namespace Given

/-- The value, if there is one. -/
def toOption {α : Type} : Given α → Option α
  | value a => some a
  | nothing => none

/-- What is given, with a function applied to its value. -/
def map {α β : Type} (f : α → β) : Given α → Given β
  | value a => value (f a)
  | nothing => nothing

/-- What a word gives. -/
def ofWord (s : String) : Given String := if s == "--" then nothing else value s

end Given

/-- What was read of a command line, all in reverse. -/
structure Reading where
  /-- What is given for options with a value. -/
  values : List (Flag × Given String)
  /-- The assertion reports that are given. -/
  reports : List (Given (Source × Path))
  /-- The word that the command requires, once it was read. -/
  operand : Option String
  /-- The words left over. -/
  extras : List String
  deriving Repr, DecidableEq

namespace Reading

/-- Nothing read. -/
def empty : Reading := ⟨[], [], none, []⟩

/-- A word was left over. -/
def withExtra (r : Reading) (s : String) : Reading :=
  { r with extras := s :: r.extras }

/-- What is given is taken for an option. -/
def take (r : Reading) (f : Flag) (given : Given String) : Except UsageError Reading :=
  match f, given with
  | .assertionReport, .value s =>
    (report s).map fun p => { r with reports := .value p :: r.reports }
  | .assertionReport, .nothing => .ok { r with reports := .nothing :: r.reports }
  | _, _ => .ok { r with values := (f, given) :: r.values }

/-- What was given last for an option. -/
def given? (r : Reading) (f : Flag) : Option (Given String) := r.values.lookup f

/-- The last value of an option. -/
def value? (r : Reading) (f : Flag) : Option String := (r.given? f).bind Given.toOption

/-- The path that an option names. -/
def path? (r : Reading) (f : Flag) : Option (Given Path) := (r.given? f).map (Given.map .ofText)

end Reading

/-- Refuses a command line in a scope. -/
def refuse {α : Type} (scope : Scope) (e : UsageError) : Except Stop α := .error (.refused scope e)

/-- Reads options and unknown words from the left, up to a word that is neither; the words from
there on are left. -/
def options (scope : Scope) : List Word → Reading → Except Stop (Reading × List Word)
  | .unknown s :: ws, r => options scope ws (r.withExtra s)
  | .flag f none :: .plain v :: ws, r =>
    if f.hasValue then
      match r.take f (.value v) with
      | .ok r => options scope ws r
      | .error e => refuse scope e
    else .error (stopFor scope f)
  | .flag f none :: _, _ =>
    if f.hasValue then refuse scope (.expectedValue f) else .error (stopFor scope f)
  | .flag f (some a) :: ws, r =>
    if f.hasValue then
      match r.take f (.ofWord (String.ofList a.value)) with
      | .ok r => options scope ws r
      | .error e => refuse scope e
    else
      match attachedFault? scope (mayBeValue ws.head?) f a with
      | some e => refuse scope e
      | none => .error (stopFor scope f)
  | ws, r => .ok (r, ws)

/-- The operand at the head of the words, and the words after it; a separator beside it is dropped.
-/
def operandAt? : List Word → Option (String × List Word)
  | .separator :: .plain s :: ws => some (s, ws)
  | .plain s :: .separator :: ws => some (s, ws)
  | .plain s :: ws => some (s, ws)
  | _ => none

/-- Reads the words in the scope of a command, with a bound of their number: options, the operand,
and further options. -/
def operands (scope : Scope) : Nat → List Word → Reading → Except Stop Reading
  | 0, _, r => .ok r
  | n + 1, ws, r => do
    let (r, ws) ← options scope ws r
    let wanted := scope.required?.isSome && r.operand.isNone
    match if wanted then operandAt? ws else none, ws with
    | some (s, ws), _ => operands scope n ws { r with operand := some s }
    | none, w :: ws => operands scope n ws (r.withExtra w.text)
    | none, [] => pure r

/-- What a command does, with the files that it works on. -/
inductive Action where
  | instrument (program : Path) (output : Option (Given Path))
  | split (raw : Path) (output entries : Option (Given Path))
  | trace (raw : Path) (reports : List (Given (Source × Path)))
      (schemaLog : Option (Given Path)) (program : Option Path)
  | serve
  deriving Repr, DecidableEq

/-- The action of a command, from what was read behind its name. -/
def actionOf (v : Verb) (r : Reading) : Except Stop Action :=
  let scope := Scope.command v
  match v.operand?, r.operand with
  | some name, none => refuse scope (.required name)
  | _, operand =>
    let file := Path.ofText (operand.getD "")
    match v with
    | .instrument => .ok (.instrument file (r.path? .output))
    | .split => .ok (.split file (r.path? .output) (r.path? .entries))
    | .trace =>
      .ok (.trace file r.reports.reverse (r.path? .schemaLog)
        ((r.path? .program).bind Given.toOption))
    | .serve => .ok .serve

/-- A command line that was read. -/
structure Invocation where
  /-- The sentinel, if one is given. -/
  sentinel : Option String
  /-- What is to be done. -/
  action : Action
  deriving Repr, DecidableEq

/-- Reads what follows the name of a command; the words left over are given in order. -/
def readCommand (v : Verb) (args : List String) : Except Stop (Action × List String) := do
  let scope := Scope.command v
  let ws ← (words scope args).mapError (.refused scope)
  let r ← operands scope (ws.length + 1) ws .empty
  let action ← actionOf v r
  pure (action, r.extras.reverse)

/-- Reads a command line. -/
def Invocation.read (args : List String) : Except Stop Invocation := do
  let ws ← (words .program args).mapError (.refused .program)
  let (r, rest) ← options .program ws .empty
  match args.drop (ws.length - rest.length) with
  | [] => refuse .program (.required "command")
  | name :: following =>
    match rest, Verb.ofName? name with
    | [.separator], _ => refuse .program (.required "command")
    | _, none => refuse .program (.unknownCommand name)
    | _, some v =>
      let (action, extras) ← readCommand v following
      match r.extras.reverse ++ extras with
      | [] => pure ⟨r.value? .sentinel, action⟩
      | left => refuse .program (.unrecognized left)

end StylesheetTrace.Command
