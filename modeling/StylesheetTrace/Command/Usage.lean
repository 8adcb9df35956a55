import StylesheetTrace.Command.Option
import StylesheetTrace.Issue
import StylesheetTrace.Text.Quoted
import StylesheetTrace.Version

/-!
# How the program is used

A command line that can not be read is refused with the usage of its scope and the error.
-/

namespace StylesheetTrace.Command

open StylesheetTrace.Text

/-- Why a command line is refused. -/
inductive UsageError where
  | ambiguous (word : String) (candidates : List String)
  | expectedValue (flag : Flag)
  | ignoredValue (flag : Flag) (value : String)
  | unknownCommand (word : String)
  | noReport (value : String)
  | unknownSource (name : String)
  | required (name : String)
  | unrecognized (words : List String)
  deriving Repr, DecidableEq

/-- The wording of the error. -/
def UsageError.message : UsageError → String
  | ambiguous word candidates =>
    s!"ambiguous option: {word} could match " ++ ", ".intercalate candidates
  | expectedValue f => s!"argument {f.label}: expected one argument"
  | ignoredValue f value => s!"argument {f.label}: ignored explicit argument {quoted value}"
  | unknownCommand word =>
    s!"argument command: invalid choice: {quoted word} (choose from " ++
      ", ".intercalate (Verb.all.map fun v => quoted v.name) ++ ")"
  | noReport value =>
    s!"argument {Flag.assertionReport.label}: expected SOURCE=FILE, got '{value}'"
  | unknownSource name =>
    s!"argument {Flag.assertionReport.label}: unknown source '{name}' (choose from " ++
      ", ".intercalate (Source.all.map Source.name) ++ ")"
  | required name => s!"the following arguments are required: {name}"
  | unrecognized words => "unrecognized arguments: " ++ " ".intercalate words

/-- The usage of a scope, with its line end. -/
def Scope.usage : Scope → String
  | program =>
    "usage: xsltrace [-h] [--version] [--marker-prefix MARKER_PREFIX]\n" ++
    "                \x7binstrument,split,trace,serve\x7d ...\n"
  | command .instrument => "usage: xsltrace instrument [-h] [-o OUTPUT] program\n"
  | command .split => "usage: xsltrace split [-h] [-o OUTPUT] [--trace TRACE] raw\n"
  | command .trace =>
    "usage: xsltrace trace [-h] [--svrl SOURCE=FILE] [--xmllint XMLLINT]\n" ++
    "                      [--program PROGRAM]\n" ++
    "                      raw\n"
  | command .serve => "usage: xsltrace serve [-h]\n"

/-- What is explained of a scope behind its usage. -/
def Scope.explanation : Scope → String
  | program =>
    "\nTrace validation errors in XSLT output back to the producing stylesheet line.\n" ++
    "\npositional arguments:\n" ++
    "  \x7binstrument,split,trace,serve\x7d\n" ++
    "    instrument          Insert trace markers into a stylesheet\n" ++
    "    split               Separate trace markers from instrumented output\n" ++
    "    trace               Map validator findings to stylesheet lines\n" ++
    "    serve               Run the REST API server\n" ++
    "\noptions:\n" ++
    "  -h, --help            show this help message and exit\n" ++
    "  --version             show program's version number and exit\n" ++
    "  --marker-prefix MARKER_PREFIX\n" ++
    "                        Trace marker sentinel (default from settings)\n"
  | command .instrument =>
    "\npositional arguments:\n" ++
    "  program               XSLT stylesheet\n" ++
    "\noptions:\n" ++
    "  -h, --help            show this help message and exit\n" ++
    "  -o OUTPUT, --output OUTPUT\n" ++
    "                        Write the instrumented stylesheet here\n"
  | command .split =>
    "\npositional arguments:\n" ++
    "  raw                   Output of the instrumented transform\n" ++
    "\noptions:\n" ++
    "  -h, --help            show this help message and exit\n" ++
    "  -o OUTPUT, --output OUTPUT\n" ++
    "                        Write the clean output here\n" ++
    "  --trace TRACE         Write trace entries as JSON here\n"
  | command .trace =>
    "\npositional arguments:\n" ++
    "  raw                 Output of the instrumented transform\n" ++
    "\noptions:\n" ++
    "  -h, --help          show this help message and exit\n" ++
    "  --svrl SOURCE=FILE  Schematron SVRL report (SOURCE: en16931, peppol);\n" ++
    "                      repeatable\n" ++
    "  --xmllint XMLLINT   Captured xmllint --schema stderr\n" ++
    "  --program PROGRAM   Original stylesheet, enables template suggestions\n"
  | command .serve =>
    "\noptions:\n" ++
    "  -h, --help  show this help message and exit\n"

/-- The help on a scope. -/
def Scope.help (s : Scope) : String := s.usage ++ s.explanation

/-- Why the arguments lead to no command: help or the version was asked for, or they were refused
in a scope. -/
inductive Stop where
  | help (scope : Scope)
  | version
  | refused (scope : Scope) (e : UsageError)
  deriving Repr, DecidableEq

namespace Stop

/-- What is written to the standard output. -/
def output : Stop → String
  | help s => s.help
  | version => "xsltrace " ++ StylesheetTrace.version ++ "\n"
  | refused _ _ => ""

/-- What is written to the standard error. -/
def complaint : Stop → String
  | refused s e => s.usage ++ s.title ++ ": error: " ++ e.message ++ "\n"
  | _ => ""

/-- The exit code. -/
def code : Stop → Nat
  | refused _ _ => 2
  | _ => 0

end Stop

end StylesheetTrace.Command
