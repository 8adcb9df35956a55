import StylesheetTrace.Proofs.RunStore.Step
import StylesheetTrace.Proofs.Session.Step
import StylesheetTrace.Service

/-!
# What a request does with the sessions

Each request is one action on the sessions, whatever becomes of it: the action and its answer are
said once for all endpoints (`Effect`, `performed_route`). What can fail is done before what takes
effect, so that an answer which tells of a failure comes with an action that changes no store. Only
the answers that something was made or removed come with one that does.
-/

namespace StylesheetTrace.Service

open StylesheetTrace.Text StylesheetTrace.Validation

/-- The answer tells that something was made for the request. -/
def tellsOfCreation : Except Crash Response → Bool
  | .ok response => response.status == 201
  | .error _ => false

/-- The actions on the sessions that a service performs, each with the answers to the request that
it is performed for. -/
inductive Effect (s : Service) (now : Int) : Sessions.Action → Except Crash Response → Prop
  | rests {answer} (h : tellsOfCreation answer = false) : Effect s now .list answer
  | looks {answer} (id : String) (h : tellsOfCreation answer = false) :
      Effect s now (.use id fun store => store) answer
  | opens (metadata : List (String × String)) :
      Effect s now (.create s.ids.session metadata)
        (.ok (.json 201 (sessionForm (Sessions.fresh s.ids.session now metadata))))
  | closes (id : String) : Effect s now (.close id) (.ok (.empty 204))
  | records {id : String} {x : Session} {q : RunRequest} {r : RunRecord} {store : RunStore}
      (hx : s.sessions.live? now id = some x)
      (htrace : x.store.trace s.tracer s.ids.run now q = .ok (r, store)) :
      Effect s now (.use id fun _ => store) (.ok (.json 201 (runForm r)))
  | removes (id : String) (store : RunStore) :
      Effect s now (.use id fun _ => store) (.ok (.empty 204))

/-- The sessions after an answer are those after one action, which goes with the answer. -/
def Performed (s : Service) (now : Int) (answered : Answered) : Prop :=
  ∃ a, answered.2.sessions = (s.sessions.step now a).2 ∧ s.Effect now a answered.1

section

variable {s : Service} {now : Int}

/-! ## Answers that change nothing -/

/-- A response that makes nothing leaves the sessions alone. -/
theorem performed_reply {response : Response} (h : (response.status == 201) = false) :
    s.Performed now (s.reply response) :=
  ⟨.list, rfl, .rests h⟩

/-- A crash leaves the sessions alone. -/
theorem performed_crash (e : Crash) : s.Performed now (.error e, s) :=
  ⟨.list, rfl, .rests rfl⟩

/-- What goes on with a value that passed its check answers a faulty one with the faults. -/
theorem performed_withChecked {α : Type} (c : Checked α) {f : α → Answered}
    (h : ∀ a, s.Performed now (f a)) : s.Performed now (s.withChecked c f) := by
  cases c with
  | valid a => exact h a
  | faulty faults => exact performed_reply rfl

/-- What goes on with the record of a body answers a faulty body with its faults, or crashes where
they can not be told. -/
theorem performed_withRecord {α : Type} (b : Body) (c : Checked α) {f : α → Answered}
    (h : ∀ a, s.Performed now (f a)) : s.Performed now (s.withRecord b c f) := by
  unfold withRecord
  split
  · exact performed_withChecked c h
  · exact performed_crash _

/-! ## Answers that need a session -/

/-- With a live session an answer goes on from the state in which it was just used. -/
theorem withSession_of_live {id : String} {x : Session} (hx : s.sessions.live? now id = some x)
    (f : Service → Session → Answered) :
    s.withSession now id f =
      f { s with sessions := s.sessions.update id fun _ => { x with lastUsed := now } }
        { x with lastUsed := now } := by
  unfold withSession
  rw [Sessions.lookup_of_live hx]

/-- Without a live session the answer is that there is none. -/
theorem performed_withSession {id : String} {f : Service → Session → Answered}
    (h : ∀ x, s.sessions.live? now id = some x → s.Performed now
      (f { s with sessions := s.sessions.update id fun _ => { x with lastUsed := now } }
        { x with lastUsed := now })) :
    s.Performed now (s.withSession now id f) := by
  cases hx : s.sessions.live? now id with
  | some x =>
    rw [withSession_of_live hx]
    exact h x hx
  | none =>
    obtain ⟨e, hlookup⟩ := Sessions.lookup_of_not_live hx
    obtain ⟨e', hstep⟩ := Sessions.step_use_of_not_live hx fun store => store
    unfold withSession
    rw [hlookup]
    exact ⟨_, by rw [hstep]; rfl, .looks id rfl⟩

/-- An answer that makes nothing and is given after a look at a session leaves its store alone. -/
theorem performed_look {id : String} {x : Session} (hx : s.sessions.live? now id = some x)
    {answer : Except Crash Response} (h : tellsOfCreation answer = false) :
    s.Performed now
      (answer, { s with sessions := s.sessions.update id fun _ => { x with lastUsed := now } }) :=
  ⟨_, (Sessions.step_look_of_live hx).symm, .looks id h⟩

/-- What only shows something of a session leaves its store alone. -/
theorem performed_show {id : String} {f : Service → Session → Answered}
    (h : ∀ s x, (f s x).2 = s ∧ tellsOfCreation (f s x).1 = false) :
    s.Performed now (s.withSession now id f) := by
  refine performed_withSession fun x hx => ?_
  obtain ⟨hsame, hnone⟩ := h { s with
    sessions := s.sessions.update id fun _ => { x with lastUsed := now } } { x with lastUsed := now }
  exact ⟨_, by rw [hsame, Sessions.step_look_of_live hx], .looks id hnone⟩

/-- What only shows something of a run leaves the store of its session alone. -/
theorem performed_withRun {session run : String} {f : Service → Session → RunRecord → Answered}
    (h : ∀ s x r, (f s x r).2 = s ∧ tellsOfCreation (f s x r).1 = false) :
    s.Performed now (s.withRun now session run f) := by
  refine performed_show fun s x => ?_
  split
  · exact h s x _
  · exact ⟨rfl, rfl⟩

/-! ## The endpoints -/

/-- A body that is no JSON value is answered by an error. -/
theorem isError_of_readJson {bytes : ByteArray} {response : Response}
    (h : readJson bytes = .error response) : response.status = 400 ∨ response.status = 422 := by
  unfold readJson at h
  split at h
  · cases h
    exact Or.inl rfl
  · split at h
    · cases h
    · cases h
      exact Or.inr rfl
    · cases h
      exact Or.inl rfl

/-- A body that can not be read is answered by an error. -/
theorem isError_of_read {r : Request} {bytes : ByteArray} {response : Response}
    (h : Body.read r bytes = .error response) : response.status = 400 ∨ response.status = 422 := by
  unfold Body.read at h
  split at h
  · cases h
  · split at h
    · cases hjson : readJson bytes with
      | ok j =>
        rw [hjson] at h
        cases h
      | error e =>
        rw [hjson] at h
        cases h
        exact isError_of_readJson hjson
    · cases h

/-- A session is opened, which does not fail. -/
theorem performed_createSession (metadata : List (String × String)) :
    s.Performed now (s.createSession now metadata) :=
  ⟨_, rfl, .opens metadata⟩

/-- A session is closed where it is found. -/
theorem performed_closeSession (id : String) : s.Performed now (s.closeSession id) := by
  unfold closeSession
  cases hfound : s.sessions.find? id with
  | some x =>
    obtain ⟨answer, hstep, -⟩ := Sessions.step_close s.sessions now id
    rw [Sessions.close_of_found (hfound ▸ rfl)]
    exact ⟨.close id, by rw [hstep]; rfl, .closes id⟩
  | none =>
    rw [Sessions.close_of_not_found hfound]
    exact performed_reply rfl

/-- A run is recorded once it was traced. -/
theorem performed_createRun (session : String) (q : RunRequest) :
    s.Performed now (s.createRun now session q) := by
  refine performed_withSession fun x hx => ?_
  dsimp only
  cases htrace : x.store.trace s.tracer s.ids.run now q with
  | ok traced =>
    obtain ⟨r, store⟩ := traced
    exact ⟨_, by rw [Sessions.step_use_of_live hx]; rfl, .records hx htrace⟩
  | error e => cases e <;> exact performed_look hx rfl

/-- A run is removed where it is found. -/
theorem performed_removeRun (session run : String) :
    s.Performed now (s.removeRun now session run) := by
  refine performed_withSession fun x hx => ?_
  dsimp only
  cases x.store.remove run with
  | ok store => exact ⟨_, by rw [Sessions.step_use_of_live hx]; rfl, .removes session store⟩
  | error e => exact performed_look hx rfl

/-- Every endpoint performs one action. -/
theorem performed_serve (r : Request) (b : Body) (e : Endpoint) :
    s.Performed now (s.serve now r b e) := by
  cases e with
  | health => exact performed_reply rfl
  | instrument =>
    refine performed_withRecord b _ fun q => ?_
    unfold Service.instrument
    split <;> exact performed_reply rfl
  | resolve =>
    refine performed_withRecord b _ fun q => ?_
    unfold Service.resolve
    split
    · exact performed_reply rfl
    · exact performed_crash _
  | createSession => exact performed_withRecord b _ performed_createSession
  | listSessions =>
    show s.Performed now (s.listSessions now)
    unfold Service.listSessions
    split <;> exact performed_reply rfl
  | showSession id => exact performed_show fun _ _ => ⟨rfl, rfl⟩
  | closeSession id => exact performed_closeSession id
  | createRun session => exact performed_withRecord b _ (performed_createRun session)
  | listRuns session => exact performed_show fun _ _ => ⟨rfl, rfl⟩
  | latestRun session =>
    refine performed_withChecked _ fun document => performed_show fun _ x => ?_
    cases x.store.latest? document <;> exact ⟨rfl, rfl⟩
  | showRun session run => exact performed_withRun fun _ _ _ => ⟨rfl, rfl⟩
  | summarizeRun session run => exact performed_withRun fun _ _ _ => ⟨rfl, rfl⟩
  | removeRun session run => exact performed_removeRun session run
  | listIssues session run =>
    exact performed_withChecked _ fun line => performed_withRun fun _ _ _ => ⟨rfl, rfl⟩

/-- Every request whose body was taken performs one action. -/
theorem performed_route (r : Request) (bytes : ByteArray) :
    s.Performed now (s.route now r bytes) := by
  unfold route
  cases Routing.of r.method r.path with
  | endpoint e =>
    unfold serveRead
    dsimp only
    split
    · rename_i response hread
      have hstatus : (response.status == 201) = false := by
        split at hread
        · rcases isError_of_read hread with h | h <;> rw [h] <;> rfl
        · cases hread
      exact performed_reply hstatus
    · split
      · exact performed_crash _
      · exact performed_serve r _ e
  | wrongMethod => exact performed_reply rfl
  | redirect => exact performed_reply rfl
  | unknown => exact performed_reply rfl

end

end StylesheetTrace.Service
