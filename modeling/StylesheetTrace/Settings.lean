import StylesheetTrace.FileTree.Path
import StylesheetTrace.Marker
import StylesheetTrace.Report.Assertion
import StylesheetTrace.Settings.Dotenv
import StylesheetTrace.Validation.Scalar

/-!
# Settings

The settings are read from the environment and from a file of variables, whose names are those of
the settings in any case.  What is given directly wins over the environment, and the environment
over the file.
-/

namespace StylesheetTrace

open StylesheetTrace.Validation

/-- The settings of the program. -/
structure Settings where
  /-- The name of the least level of the log. -/
  logLevel : String
  /-- The sentinel of markers. -/
  sentinel : String
  /-- The path of the file that overrides rules. -/
  rulesFile : Option Path
  /-- The greatest size of an assertion report, in characters. -/
  reportLimit : Int
  /-- The name under which the server listens. -/
  host : String
  /-- The port on which it listens, unless `port` is set. -/
  hostPort : Int
  /-- The port that is set for the process. -/
  port : Option Int
  /-- How long a session lives without being used, in seconds. -/
  timeToLive : Int
  /-- How often the expired sessions are purged, in seconds. -/
  cleanupInterval : Int
  /-- The list of sessions is not shown. -/
  hidesSessions : Bool
  deriving Repr, DecidableEq

namespace Settings

/-- The port to listen on: the one that is set for the process wins. -/
def effectivePort (s : Settings) : Int := s.port.getD s.hostPort

/-- A path. -/
def path : Json → Checked Path
  | .str s => .valid (.ofText s)
  | _ => .fail .pathType

/-- The settings in an object; those that it does not name have their defaults. -/
def check (j : Json) : Checked Settings :=
  Settings.mk <$> optional text "INFO" "log_level" j
    <*> optional text Marker.defaultSentinel "trace_marker_prefix" j
    <*> optional (nullable path) none "rule_targets_file" j
    <*> optional whole Report.defaultLimit "max_report_size" j
    <*> optional text "localhost" "api_server_host" j
    <*> optional whole 8000 "api_server_port" j
    <*> optional (nullable whole) none "port" j
    <*> optional whole 1800 "session_ttl_seconds" j
    <*> optional whole 60 "session_cleanup_interval" j
    <*> optional truth false "disable_session_list" j

/-- A name in small letters.  Of the letters outside ASCII only the Kelvin sign has a small form in
ASCII, where all names of settings are. -/
def lower (s : String) : String :=
  String.ofList (s.toList.map fun c => if c == '\u212a' then 'k' else c.toLower)

/-- The fields that variables give.  Of variables whose names differ in case, the last one counts;
one without a value gives none. -/
def fieldsOf (vs : Dotenv.Variables) : List (String × Json) :=
  (vs.foldl (fun fs (name, value) => Dotenv.assign fs (lower name) value) []).filterMap
    fun (name, value) => value.map fun v => (name, .str v)

/-- Where settings come from. -/
structure Origins where
  /-- What is given directly. -/
  given : List (String × Json)
  /-- The variables of the environment. -/
  environment : List (String × String)
  /-- The text of the file of variables, if there is one. -/
  file : Option String

/-- The settings from all their origins. -/
def load (o : Origins) : Checked Settings :=
  let environment := o.environment.map fun (name, value) => (name, some value)
  let file := (o.file.map (Dotenv.Variables.ofText environment)).getD []
  check (.obj (o.given ++ fieldsOf environment ++ fieldsOf file))

end Settings

end StylesheetTrace
