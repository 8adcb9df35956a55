import StylesheetTrace.RunStore

/-!
# Sessions

Each client has a session with a store of its own.  A session lives as long as it is used: it has
expired once more than the time to live has passed since its last use.  An expired session is
dropped when it is looked up or when the expired sessions are purged.  One session of a fixed
identifier serves clients that name none; it is opened when first needed and is not listed.  Times
are in seconds.
-/

namespace StylesheetTrace

/-- A session. -/
structure Session where
  /-- The identifier of the session. -/
  id : String
  /-- The runs that were recorded in it. -/
  store : RunStore
  /-- The time of its creation. -/
  createdAt : Int
  /-- The time of its last use. -/
  lastUsed : Int
  /-- What its client noted. -/
  metadata : List (String × String)
  deriving Repr, DecidableEq

/-- Why a session is not found. -/
inductive SessionError where
  | unknown (id : String)
  | expired (id : String)
  deriving Repr, DecidableEq

/-- The wording of the error. -/
def SessionError.message : SessionError → String
  | unknown id => "Session '" ++ id ++ "' not found"
  | expired id => "Session '" ++ id ++ "' has expired"

/-- The sessions of a service. -/
structure Sessions where
  /-- How long a session lives without being used, in seconds. -/
  timeToLive : Int
  /-- The sessions in the order of their creation. -/
  sessions : List Session
  deriving Repr, DecidableEq

namespace Sessions

/-- The identifier of the session for clients that name none. -/
def defaultId : String := "__default__"

/-- No session, with a time to live. -/
def ofTimeToLive (seconds : Int) : Sessions := ⟨seconds, []⟩

/-- The session has not been used for longer than the time to live. -/
def hasExpired (s : Sessions) (now : Int) (x : Session) : Bool :=
  decide (now - x.lastUsed > s.timeToLive)

/-- The session with an identifier, expired or not. -/
def find? (s : Sessions) (id : String) : Option Session :=
  s.sessions.find? fun x => x.id == id

/-- The sessions with one of them changed. -/
def update (s : Sessions) (id : String) (f : Session → Session) : Sessions :=
  { s with sessions := s.sessions.map fun x => if x.id == id then f x else x }

/-- The sessions without one of them. -/
def drop (s : Sessions) (id : String) : Sessions :=
  { s with sessions := s.sessions.filter fun x => x.id != id }

/-- The sessions with a new one, which takes the place of a session with its identifier. -/
def put (s : Sessions) (x : Session) : Sessions :=
  if (s.find? x.id).isSome then s.update x.id fun _ => x
  else { s with sessions := s.sessions ++ [x] }

/-- A session that is opened at the time `now`. -/
def fresh (id : String) (now : Int) (metadata : List (String × String)) : Session :=
  ⟨id, .empty, now, now, metadata⟩

/-- Opens a session under a new identifier. -/
def create (s : Sessions) (id : String) (now : Int) (metadata : List (String × String)) :
    Session × Sessions :=
  let x := fresh id now metadata
  (x, s.put x)

/-- Looks a session up, which counts as a use of it.  An expired session is dropped. -/
def lookup (s : Sessions) (id : String) (now : Int) : Except SessionError Session × Sessions :=
  match s.find? id with
  | none => (.error (.unknown id), s)
  | some x =>
    if s.hasExpired now x then (.error (.expired id), s.drop id)
    else
      let used := { x with lastUsed := now }
      (.ok used, s.update id fun _ => used)

/-- Closes a session, expired or not. -/
def close (s : Sessions) (id : String) : Except SessionError Sessions :=
  match s.find? id with
  | none => .error (.unknown id)
  | some _ => .ok (s.drop id)

/-- The sessions that have not expired, but for the default one. -/
def live (s : Sessions) (now : Int) : List Session :=
  s.sessions.filter fun x => x.id != defaultId && !s.hasExpired now x

/-- How many sessions have not expired, the default one included. -/
def activeCount (s : Sessions) (now : Int) : Nat :=
  s.sessions.countP fun x => !s.hasExpired now x

/-- The default session, used at the time `now`; it is opened if there is none. -/
def openDefault (s : Sessions) (now : Int) : Session × Sessions :=
  match s.find? defaultId with
  | some x =>
    let used := { x with lastUsed := now }
    (used, s.update defaultId fun _ => used)
  | none => s.create defaultId now []

/-- Drops the sessions that have expired. -/
def purge (s : Sessions) (now : Int) : Sessions :=
  { s with sessions := s.sessions.filter fun x => !s.hasExpired now x }

/-- The sessions with the store of one of them replaced. -/
def withStore (s : Sessions) (id : String) (store : RunStore) : Sessions :=
  s.update id fun x => { x with store }

end Sessions

/-- The identifiers that have been handed out are counted. -/
structure IdSupply where
  /-- How many sessions have one. -/
  sessions : Nat
  /-- How many runs have one. -/
  runs : Nat
  deriving Repr, DecidableEq

namespace IdSupply

/-- The supply from which nothing has been taken. -/
def start : IdSupply := ⟨0, 0⟩

/-- The next identifier of a session: its number in thirty-two hexadecimal digits. -/
def session (s : IdSupply) : String :=
  String.ofList (Text.hexDigits 32 (s.sessions + 1))

/-- The next identifier of a run: its number in eight hexadecimal digits. -/
def run (s : IdSupply) : String :=
  String.ofList (Text.hexDigits 8 (s.runs + 1))

/-- The supply after an identifier of a session was taken. -/
def tookSession (s : IdSupply) : IdSupply := { s with sessions := s.sessions + 1 }

/-- The supply after an identifier of a run was taken. -/
def tookRun (s : IdSupply) : IdSupply := { s with runs := s.runs + 1 }

end IdSupply

end StylesheetTrace
