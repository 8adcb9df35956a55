import StylesheetTrace.Text.Blank
import StylesheetTrace.Text.Lines

/-!
# Endpoints

A path leads to a resource, and a method to one of the endpoints of the resource.  A path that
leads to a resource once the slashes at its end are dropped is redirected.
-/

namespace StylesheetTrace.Service

open StylesheetTrace.Text

/-- What a path leads to. -/
inductive Resource where
  | health
  | instrument
  | resolve
  | sessions
  | session (id : String)
  | runs (session : String)
  | latest (session : String)
  | run (session id : String)
  | summary (session run : String)
  | issues (session run : String)
  deriving Repr, DecidableEq

/-- What a request can ask for. -/
inductive Endpoint where
  | health
  | instrument
  | resolve
  | createSession
  | listSessions
  | showSession (id : String)
  | closeSession (id : String)
  | createRun (session : String)
  | listRuns (session : String)
  | latestRun (session : String)
  | showRun (session run : String)
  | removeRun (session run : String)
  | summarizeRun (session run : String)
  | listIssues (session run : String)
  deriving Repr, DecidableEq

/-- The last name of a path, which a line feed may follow. -/
def isLast (name s : String) : Bool := s == name || s == name ++ "\n"

namespace Resource

/-- The resource that the names of a path lead to.  The identifiers in a path are not empty. -/
def ofNames? : List String → Option Resource
  | [a] =>
    if isLast "health" a then some health
    else if isLast "instrument" a then some instrument
    else if isLast "resolve" a then some resolve
    else if isLast "sessions" a then some sessions
    else none
  | ["sessions", id] => if id.isEmpty then none else some (session id)
  | ["sessions", id, a] =>
    if id.isEmpty then none
    else if isLast "runs" a then some (runs id)
    else if isLast "latest" a then some (latest id)
    else none
  | ["sessions", id, "runs", r] => if id.isEmpty || r.isEmpty then none else some (run id r)
  | ["sessions", id, "runs", r, a] =>
    if id.isEmpty || r.isEmpty then none
    else if isLast "summary" a then some (summary id r)
    else if isLast "issues" a then some (issues id r)
    else none
  | _ => none

/-- The resource that a path leads to. -/
def ofPath? (path : List Char) : Option Resource :=
  match splitOn '/' path with
  | [] :: names => ofNames? (names.map String.ofList)
  | _ => none

/-- The endpoint for a method. -/
def endpoint? : Resource → String → Option Endpoint
  | health, "GET" => some .health
  | instrument, "POST" => some .instrument
  | resolve, "POST" => some .resolve
  | sessions, "POST" => some .createSession
  | sessions, "GET" => some .listSessions
  | session id, "GET" => some (.showSession id)
  | session id, "DELETE" => some (.closeSession id)
  | runs s, "POST" => some (.createRun s)
  | runs s, "GET" => some (.listRuns s)
  | latest s, "GET" => some (.latestRun s)
  | run s r, "GET" => some (.showRun s r)
  | run s r, "DELETE" => some (.removeRun s r)
  | summary s r, "GET" => some (.summarizeRun s r)
  | issues s r, "GET" => some (.listIssues s r)
  | _, _ => none

end Resource

namespace Endpoint

/-- The endpoint reads the body of a request. -/
def takesBody : Endpoint → Bool
  | instrument | resolve | createSession | createRun _ => true
  | _ => false

/-- The endpoint works on the sessions. -/
def usesSessions : Endpoint → Bool
  | health | instrument | resolve => false
  | _ => true

end Endpoint

/-- Where a request leads. -/
inductive Routing where
  | endpoint (e : Endpoint)
  | wrongMethod
  | redirect
  | unknown
  deriving Repr, DecidableEq

/-- Where a method and a path lead. -/
def Routing.of (method : String) (path : List Char) : Routing :=
  match Resource.ofPath? path with
  | some r => ((r.endpoint? method).map .endpoint).getD .wrongMethod
  | none =>
    if path.getLast? == some '/' && (Resource.ofPath? (dropEndWhile (· == '/') path)).isSome then
      .redirect
    else .unknown

end StylesheetTrace.Service
