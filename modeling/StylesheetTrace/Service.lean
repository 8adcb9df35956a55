import StylesheetTrace.Location.Resolve
import StylesheetTrace.Service.Echo
import StylesheetTrace.Service.Endpoint
import StylesheetTrace.Service.Limit
import StylesheetTrace.Settings
import StylesheetTrace.Stylesheet.Instrument
import StylesheetTrace.Version

/-!
# The service

The service answers requests one at a time.  Every client has a session with the runs that it
records.  A request is first checked for the size of its body, then led to an endpoint, then read,
and only then answered; one that is answered with an error leaves the runs of all sessions as they
are.
-/

namespace StylesheetTrace

open StylesheetTrace.Text StylesheetTrace.Validation StylesheetTrace.Service

/-- The service. -/
structure Service where
  /-- The settings with which it was set up. -/
  settings : Settings
  /-- How it traces runs. -/
  tracer : Tracer
  /-- It was started, so that it answers requests for runs and sessions. -/
  isStarted : Bool
  /-- The sessions. -/
  sessions : Sessions
  /-- The identifiers that have been handed out, counted. -/
  ids : IdSupply

namespace Service

/-- A service without sessions. -/
def new (settings : Settings) (table : RuleTable) (isStarted : Bool) : Service :=
  ⟨settings, ⟨settings.sentinel, settings.reportLimit, table⟩, isStarted,
    .ofTimeToLive settings.timeToLive, .start⟩

/-- Why a request breaks the service off. -/
inductive Crash where
  | notStarted
  | number (e : TooLong)
  | unencodable (u : Unencodable)
  | refusal (e : WriteError)
  deriving Repr, DecidableEq

/-- The wording of the crash. -/
def Crash.message : Crash → String
  | notStarted => "SessionManager not initialised, call init_session_manager() first"
  | number e => e.message
  | unencodable u => "Error serializing to JSON: UnicodeEncodeError: " ++ u.message
  | refusal e => e.message

/-- The answer to a request, and the service after it. -/
abbrev Answered := Except Crash Response × Service

/-- Answers with a response. -/
def reply (s : Service) (r : Response) : Answered := (.ok r, s)

/-- Goes on with a value that passed its check. -/
def withChecked {α : Type} (s : Service) (c : Checked α) (f : α → Answered) : Answered :=
  match c with
  | .valid a => f a
  | .faulty fs => s.reply (.faulty fs)

/-- Goes on with the record of a body that passed its check. -/
def withRecord {α : Type} (s : Service) (b : Body) (c : Checked α) (f : α → Answered) :
    Answered :=
  match echoError? b.json c.faults with
  | none => s.withChecked c f
  | some e => (.error (.refusal e), s)

/-- Goes on with a session, which this counts as used. -/
def withSession (s : Service) (now : Int) (id : String) (f : Service → Session → Answered) :
    Answered :=
  match s.sessions.lookup id now with
  | (.ok x, sessions) => f { s with sessions } x
  | (.error _, sessions) => { s with sessions }.reply (.detail 404 s!"Session '{id}' not found")

/-- Goes on with a run of a session. -/
def withRun (s : Service) (now : Int) (session run : String)
    (f : Service → Session → RunRecord → Answered) : Answered :=
  s.withSession now session fun s x =>
    match x.store.get run with
    | .ok r => f s x r
    | .error _ => s.reply (.detail 404 s!"Run '{run}' not found")

/-- Instruments a stylesheet and counts the markers in the result. -/
def instrument (s : Service) (q : InstrumentRequest) : Answered :=
  match Stylesheet.instrument s.settings.sentinel q.file q.content with
  | .error e => s.reply (.detail 422 e.message)
  | .ok text =>
    let marker := s.settings.sentinel.toList ++ [Marker.delimiter]
    let count := Text.count (fun t => (after? marker t).map ((), ·)) text.toList
    s.reply (.json 200 (.obj [("instrumented", .str text), ("marker_count", .nat count)]))

/-- Resolves a location path. -/
def resolve (s : Service) (q : ResolveRequest) : Answered :=
  match Location.resolve q.location (linesOf q.content) q.fallback with
  | .ok line => s.reply (.json 200 (.obj [("line", .int line)]))
  | .error e => (.error (.number e), s)

/-- Opens a session. -/
def createSession (s : Service) (now : Int) (metadata : List (String × String)) : Answered :=
  let (x, sessions) := s.sessions.create s.ids.session now metadata
  { s with sessions, ids := s.ids.tookSession }.reply (.json 201 (sessionForm x))

/-- Closes a session. -/
def closeSession (s : Service) (id : String) : Answered :=
  match s.sessions.close id with
  | .ok sessions => { s with sessions }.reply (.empty 204)
  | .error _ => s.reply (.detail 404 s!"Session '{id}' not found")

/-- Lists the sessions that have not expired, unless that is not wanted. -/
def listSessions (s : Service) (now : Int) : Answered :=
  if s.settings.hidesSessions then s.reply (.detail 403 "Session listing is disabled")
  else
    let forms := (s.sessions.live now).map sessionForm
    s.reply (.json 200 (.obj [("sessions", .arr forms)]))

/-- Traces a run and records it in a session. -/
def createRun (s : Service) (now : Int) (session : String) (q : RunRequest) : Answered :=
  s.withSession now session fun s x =>
    match x.store.trace s.tracer s.ids.run now q with
    | .ok (r, store) =>
      { s with sessions := s.sessions.withStore session store, ids := s.ids.tookRun }.reply
        (.json 201 (runForm r))
    | .error (.number e) => (.error (.number e), s)
    | .error e => s.reply (.detail 413 e.message)

/-- Removes a run from a session. -/
def removeRun (s : Service) (now : Int) (session run : String) : Answered :=
  s.withSession now session fun s x =>
    match x.store.remove run with
    | .ok store => { s with sessions := s.sessions.withStore session store }.reply (.empty 204)
    | .error _ => s.reply (.detail 404 s!"Run '{run}' not found")

/-- The most recent run of a document. -/
def latestRun (s : Service) (now : Int) (session document : String) : Answered :=
  s.withSession now session fun s x =>
    match x.store.latest? document with
    | some r => s.reply (.json 200 (runForm r))
    | none => s.reply (.detail 404 s!"No run recorded for '{document}'")

/-- The issues of a run, those on one line if a line is given. -/
def listIssues (s : Service) (now : Int) (session run : String) (line : Option Nat) : Answered :=
  s.withRun now session run fun s _ r =>
    let issues := match line with
      | none => r.result.traced
      | some n => r.issuesAt n
    s.reply (.json 200 (issuesForm line issues))

/-- The document that a query must name. -/
def documentField (r : Request) : Checked String :=
  Checked.within (.field "query") <| Checked.within (.field "document") <|
    match r.queryValue? "document" with
    | none => .fail .missing
    | some "" => .fail .stringTooShort
    | some name => .valid name

/-- The line that a query may give. -/
def lineField (r : Request) : Checked (Option Nat) :=
  Checked.within (.field "query") <| Checked.within (.field "line") <|
    match r.queryValue? "line" with
    | none => .valid none
    | some value => (atLeast 1 (.str value)).map some

/-- Answers a request to an endpoint. -/
def serve (s : Service) (now : Int) (r : Request) (b : Body) : Endpoint → Answered
  | .health =>
    s.reply (.json 200 (.obj [("status", .str "ok"), ("version", .str StylesheetTrace.version)]))
  | .instrument => s.withRecord b (b.record instrumentForm) s.instrument
  | .resolve => s.withRecord b (b.record resolveForm) s.resolve
  | .createSession => s.withRecord b (b.recordOr [] metadataForm) (s.createSession now)
  | .listSessions => s.listSessions now
  | .showSession id => s.withSession now id fun s x => s.reply (.json 200 (sessionForm x))
  | .closeSession id => s.closeSession id
  | .createRun session => s.withRecord b (b.record runRequestForm) (s.createRun now session)
  | .listRuns session => s.withSession now session fun s x =>
    s.reply (.json 200 (.arr (x.store.summaries.map summaryForm)))
  | .latestRun session => s.withChecked (documentField r) (s.latestRun now session)
  | .showRun session run => s.withRun now session run fun s _ r =>
    s.reply (.json 200 (runForm r))
  | .summarizeRun session run => s.withRun now session run fun s _ r =>
    s.reply (.json 200 (summaryForm r.summary))
  | .removeRun session run => s.removeRun now session run
  | .listIssues session run => s.withChecked (lineField r) (s.listIssues now session run)

/-- Answers a request that leads to an endpoint: its body is read before the sessions are needed. -/
def serveRead (s : Service) (now : Int) (r : Request) (bytes : ByteArray) (e : Endpoint) :
    Answered :=
  match if e.takesBody then Body.read r bytes else .ok .none with
  | .error response => s.reply response
  | .ok b => if e.usesSessions && !s.isStarted then (.error .notStarted, s) else s.serve now r b e

/-- Answers a request whose body was taken. -/
def route (s : Service) (now : Int) (r : Request) (bytes : ByteArray) : Answered :=
  match Routing.of r.method r.path with
  | .endpoint e => s.serveRead now r bytes e
  | .wrongMethod => s.reply (.detail 405 "Method Not Allowed")
  | .redirect => s.reply (.empty 307)
  | .unknown => s.reply (.detail 404 "Not Found")

/-- The response as it is sent, unless it can not be written. -/
def written (response : Response) : Except Crash Response :=
  match response.unencodable? with
  | none => .ok response
  | some u => .error (.unencodable u)

/-- The response as the client gets it: one to the method `HEAD` has no body. -/
def shownTo (r : Request) (response : Response) : Response :=
  if r.method == "HEAD" then .empty response.status else response

/-- Answers a request at the time `now`, in seconds. -/
def handle (s : Service) (now : Int) (r : Request) : Answered :=
  let (answer, s) := match takeBody r with
    | .ok bytes => s.route now r bytes
    | .error e => s.reply e.response
  (answer >>= written |>.map (shownTo r), s)

end Service

end StylesheetTrace
