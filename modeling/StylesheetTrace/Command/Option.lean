/-!
# Commands and their options

The program has one option of its own for the sentinel, and four commands.  An option is given by
one of its names; those with a value take it from the same word or from the next one.
-/

namespace StylesheetTrace.Command

/-- The commands of the program. -/
inductive Verb where
  | instrument
  | split
  | trace
  | serve
  deriving Repr, DecidableEq

namespace Verb

/-- The name of a command. -/
def name : Verb → String
  | instrument => "instrument"
  | split => "split"
  | trace => "trace"
  | serve => "serve"

/-- The commands. -/
def all : List Verb := [instrument, split, trace, serve]

/-- The command of a given name. -/
def ofName? (s : String) : Option Verb :=
  all.find? fun v => v.name == s

/-- The name of the file that a command works on, if it works on one. -/
def operand? : Verb → Option String
  | instrument => some "program"
  | split | trace => some "raw"
  | serve => none

end Verb

/-- The options of the program and of its commands. -/
inductive Flag where
  | help
  | version
  | sentinel
  | output
  | entries
  | assertionReport
  | schemaLog
  | program
  deriving Repr, DecidableEq

namespace Flag

/-- The names of an option, a short one first. -/
def names : Flag → List String
  | help => ["-h", "--help"]
  | version => ["--version"]
  | sentinel => ["--marker-prefix"]
  | output => ["-o", "--output"]
  | entries => ["--trace"]
  | assertionReport => ["--svrl"]
  | schemaLog => ["--xmllint"]
  | program => ["--program"]

/-- The option has a value. -/
def hasValue : Flag → Bool
  | help | version => false
  | _ => true

/-- How an option is called in messages. -/
def label (f : Flag) : String := "/".intercalate f.names

end Flag

/-- Where a command line is read: in front of the command, or behind it. -/
inductive Scope where
  | program
  | command (v : Verb)
  deriving Repr, DecidableEq

namespace Scope

/-- The options that are known in a scope, in the order in which they are searched. -/
def flags : Scope → List Flag
  | program => [.help, .version, .sentinel]
  | command .instrument => [.help, .output]
  | command .split => [.help, .output, .entries]
  | command .trace => [.help, .assertionReport, .schemaLog, .program]
  | command .serve => [.help]

/-- The names of the options that are known in a scope, each with its option. -/
def flagNames (s : Scope) : List (String × Flag) :=
  s.flags.flatMap fun f => f.names.map fun n => (n, f)

/-- The option of a given name. -/
def flag? (s : Scope) (name : String) : Option Flag :=
  s.flagNames.lookup name

/-- What must be given in a scope besides its options. -/
def required? : Scope → Option String
  | program => some "command"
  | command v => v.operand?

/-- How the program calls itself in a scope. -/
def title : Scope → String
  | program => "xsltrace"
  | command v => "xsltrace " ++ v.name

end Scope

end StylesheetTrace.Command
