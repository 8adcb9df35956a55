import StylesheetTrace.Proofs.Service.Effect
import StylesheetTrace.Proofs.Session.Contents

/-!
# What a refused request leaves

A request that is refused leaves the data of the service as they were, with one exception. What is
asked for is made before the response to it is written, and a text that holds half of a surrogate
pair can be read from a body but not be written into a response: then the request breaks off, and
the session or the run is there all the same (`isUndelivered`). There is no other exception, and
this one changes the data whenever the identifier handed out for it is new
(`sameContents_of_refused`).

The proof rests on the effects of requests alone (`Effect`): the invariant of the sessions holds in
every state that a service reaches, since every request and every purge is an action on them.
-/

namespace StylesheetTrace.Service

open StylesheetTrace.Text StylesheetTrace.Validation

/-- The states that a service can be in by a time: requests are answered and the expired sessions
purged while time goes by. Identifiers are drawn at random, so the supply of them may be any at any
time. -/
inductive Reached (settings : Settings) (table : RuleTable) (isStarted : Bool) :
    Int → Service → Prop
  | start (now : Int) : Reached settings table isStarted now (.new settings table isStarted)
  | wait {now later : Int} {s : Service} (h : Reached settings table isStarted now s)
      (hlater : now ≤ later) : Reached settings table isStarted later s
  | answer {now : Int} {s : Service} (h : Reached settings table isStarted now s) (r : Request) :
      Reached settings table isStarted now (s.handle now r).2
  | purge {now : Int} {s : Service} (h : Reached settings table isStarted now s) :
      Reached settings table isStarted now { s with sessions := s.sessions.purge now }
  | draw {now : Int} {s : Service} (h : Reached settings table isStarted now s) (ids : IdSupply) :
      Reached settings table isStarted now { s with ids }

/-- The request was refused: it broke off, or the response tells of an error. -/
def isRefused : Except Crash Response → Bool
  | .ok response => response.isError
  | .error _ => true

/-- The answer shows what was made for a request, and can not be written. -/
def isUnwritable : Except Crash Response → Bool
  | .ok response => response.status == 201 && response.unencodable?.isSome
  | .error _ => false

/-- Something is made for the request that can not be shown in the response to it. -/
def isUndelivered (s : Service) (now : Int) (r : Request) : Bool :=
  match takeBody r with
  | .ok bytes => isUnwritable (s.route now r bytes).1
  | .error _ => false

/-- The next identifiers are new. -/
structure HasNewIds (s : Service) : Prop where
  /-- The next identifier of a session is in use for none. -/
  session : s.ids.session ∉ s.sessions.ids
  /-- The next identifier of a run is in use for none, whatever its session. -/
  run : ∀ x ∈ s.sessions.sessions, s.ids.run ∉ x.store.ids

section

variable {s : Service} {now : Int} {r : Request}

/-! ## The sessions of a service -/

/-- A request performs one action, and its answer is written afterwards. -/
theorem handle_cases (s : Service) (now : Int) (r : Request) :
    (∃ e, takeBody r = .error e ∧ s.handle now r = (written e.response |>.map (shownTo r), s)) ∨
    ∃ bytes, takeBody r = .ok bytes ∧
      s.handle now r = ((s.route now r bytes).1 >>= written |>.map (shownTo r),
        (s.route now r bytes).2) := by
  unfold handle
  cases takeBody r with
  | error e => exact Or.inl ⟨e, rfl, rfl⟩
  | ok bytes => exact Or.inr ⟨bytes, rfl, rfl⟩

/-- A request leaves the sessions as one action does. -/
theorem exists_action (s : Service) (now : Int) (r : Request) :
    ∃ a, (s.handle now r).2.sessions = (s.sessions.step now a).2 := by
  rcases handle_cases s now r with ⟨e, -, h⟩ | ⟨bytes, -, h⟩
  · exact ⟨.list, by rw [h]; rfl⟩
  · obtain ⟨a, hsessions, -⟩ := @performed_route s now r bytes
    exact ⟨a, by rw [h, hsessions]⟩

/-- The sessions of a service are valid in every state that it reaches. -/
theorem Reached.valid {settings : Settings} {table : RuleTable} {isStarted : Bool}
    (h : Reached settings table isStarted now s) : s.sessions.Valid now := by
  induction h with
  | start now => exact Sessions.valid_ofTimeToLive _ now
  | wait h hlater ih => exact ih.mono hlater
  | @answer now s h r ih =>
    obtain ⟨a, hsessions⟩ := exists_action s now r
    rw [hsessions]
    exact ih.step a
  | purge h ih => exact ih.step .purge
  | draw h ids ih => exact ih

/-! ## Answers that are written -/

/-- What is shown of a response has its status. -/
theorem status_shownTo (r : Request) (response : Response) :
    (shownTo r response).status = response.status := by
  unfold shownTo
  split <;> rfl

/-- A response below the errors is refused only where it can not be written. -/
theorem isRefused_written {response : Response} (h : response.status < 400) :
    isRefused ((written response).map (shownTo r)) = response.unencodable?.isSome := by
  unfold written
  cases response.unencodable? with
  | some u => rfl
  | none =>
    show decide (400 ≤ (shownTo r response).status) = false
    rw [status_shownTo, decide_eq_false_iff_not]
    omega

/-- An answer that tells of nothing made is not one of those that can not be shown. -/
theorem isUnwritable_of_no_creation {answer : Except Crash Response}
    (h : tellsOfCreation answer = false) : isUnwritable answer = false := by
  cases answer with
  | error e => rfl
  | ok response =>
    show (response.status == 201 && response.unencodable?.isSome) = false
    rw [show (response.status == 201) = false from h, Bool.false_and]

/-- An answer that tells of something made is refused only where it can not be shown. -/
theorem isUnwritable_of_refused {answer : Except Crash Response}
    (h : tellsOfCreation answer = true)
    (hrefused : isRefused ((answer >>= written).map (shownTo r)) = true) :
    isUnwritable answer = true := by
  cases answer with
  | error e => exact absurd h Bool.false_ne_true
  | ok response =>
    have hstatus : (response.status == 201) = true := h
    have hsmall : response.status < 400 := by
      rw [beq_iff_eq.mp hstatus]
      decide
    show (response.status == 201 && response.unencodable?.isSome) = true
    rw [hstatus, Bool.true_and, ← isRefused_written (r := r) hsmall]
    exact hrefused

/-! ## Effects and what the sessions hold -/

/-- An answer that tells of nothing made comes with sessions that hold the same, and one that tells
of something made does not; the answer without a body tells that something was removed. -/
theorem Effect.contents {a : Sessions.Action} {answer : Except Crash Response}
    (heffect : s.Effect now a answer) (hvalid : s.sessions.Valid now) :
    (tellsOfCreation answer = false ∧
      Sessions.SameContents now s.sessions (s.sessions.step now a).2) ∨
    (tellsOfCreation answer = true ∧ (s.HasNewIds → 0 ≤ s.sessions.timeToLive →
      ¬ Sessions.SameContents now s.sessions (s.sessions.step now a).2)) ∨
    answer = .ok (.empty 204) := by
  cases heffect with
  | rests hnone => exact Or.inl ⟨hnone, hvalid.sameContents_self⟩
  | looks id hnone => exact Or.inl ⟨hnone, hvalid.sameContents_look id⟩
  | opens metadata =>
    exact Or.inr (Or.inl ⟨rfl, fun hnew httl =>
      hvalid.not_sameContents_create hnew.session httl metadata⟩)
  | @records id x q run store hx htrace =>
    refine Or.inr (Or.inl ⟨rfl, fun hnew _ => hvalid.not_sameContents_use hx ?_⟩)
    have hfound : s.sessions.find? id = some x := (Sessions.live?_eq_some.mp hx).1
    have hmem : x ∈ s.sessions.sessions := ((Sessions.find?_eq_some hvalid.distinct).mp hfound).1
    exact RunStore.ne_of_trace htrace (hnew.run x hmem)
  | closes id => exact Or.inr (Or.inr rfl)
  | removes id store => exact Or.inr (Or.inr rfl)

end

/-! ## Refused requests -/

/-- A request that is refused leaves the live sessions with what they hold, unless something was
made for it and can not be shown; then what was made is there. Left out are the requests whose texts
hold one of the unassigned code points from U+DD800 to U+DDFFF: such a code point stands in for half
of a surrogate pair (`halfPair?`), and what is said of the request is said of one with the half in its
place. -/
theorem sameContents_of_refused {settings : Settings} {table : RuleTable} {isStarted : Bool}
    {now : Int} {s : Service} (hreached : Reached settings table isStarted now s) {r : Request}
    (hrefused : isRefused (s.handle now r).1 = true) :
    (s.isUndelivered now r = false →
      Sessions.SameContents now s.sessions (s.handle now r).2.sessions) ∧
    (s.isUndelivered now r = true → s.HasNewIds → 0 ≤ s.sessions.timeToLive →
      ¬ Sessions.SameContents now s.sessions (s.handle now r).2.sessions) := by
  have hvalid : s.sessions.Valid now := hreached.valid
  rcases handle_cases s now r with ⟨e, hbody, h⟩ | ⟨bytes, hbody, h⟩
  · -- The body was not taken.
    have hnot : s.isUndelivered now r = false := by
      rw [isUndelivered, hbody]
    rw [h, hnot]
    exact ⟨fun _ => hvalid.sameContents_self, fun h => absurd h Bool.false_ne_true⟩
  · obtain ⟨a, hsessions, heffect⟩ := @performed_route s now r bytes
    have hundelivered : s.isUndelivered now r = isUnwritable (s.route now r bytes).1 := by
      rw [isUndelivered, hbody]
    rw [h] at hrefused ⊢
    rw [hundelivered, hsessions]
    rcases heffect.contents hvalid with ⟨hnone, hsame⟩ | ⟨hmade, hother⟩ | hempty
    · rw [isUnwritable_of_no_creation hnone]
      exact ⟨fun _ => hsame, fun h => absurd h Bool.false_ne_true⟩
    · rw [isUnwritable_of_refused hmade hrefused]
      exact ⟨fun h => absurd h.symm Bool.false_ne_true, fun _ => hother⟩
    · -- An answer without a body is written.
      have hwritten : isRefused ((written (.empty 204)).map (shownTo r)) = false :=
        isRefused_written (by decide)
      rw [hempty] at hrefused
      exact absurd (hwritten.symm.trans hrefused) Bool.false_ne_true

/-- Settings with a time to live of ten seconds. -/
def sampleSettings : Settings :=
  { logLevel := "INFO", sentinel := "TRACE", rulesFile := none, reportLimit := 1000,
    host := "localhost", hostPort := 8000, port := none, timeToLive := 10, cleanupInterval := 60,
    hidesSessions := false }

/-- A request for a new session. -/
def sampleOpening (body : String) : Request :=
  ⟨"POST", "/sessions", [("content-type", "application/json")], [body.toUTF8]⟩

/-- A service with one session, which was opened at the time 0. -/
def sampleService : Service :=
  ((Service.new sampleSettings RuleTable.empty true).handle 0 (sampleOpening "")).2

/-- A request for a run that is not there, in the one session. -/
def sampleMissing : Request :=
  ⟨"GET", "/sessions/00000000000000000000000000000001/runs/x", [], []⟩

/-- A request for a session about which half of a surrogate pair is noted. -/
def sampleHalf : Request :=
  sampleOpening "\x7b\"metadata\": \x7b\"note\": \"\\ud800\"\x7d\x7d"

/-- The request for a missing run is refused after its session was used, and the sessions hold the
same. The request with half of a surrogate pair breaks off, and a new session is there. -/
theorem sameContents_of_refused_sample :
    isRefused (sampleService.handle 5 sampleMissing).1 = true ∧
      Sessions.SameContents 5 sampleService.sessions
        (sampleService.handle 5 sampleMissing).2.sessions ∧
      isRefused (sampleService.handle 5 sampleHalf).1 = true ∧
      ¬ Sessions.SameContents 5 sampleService.sessions
        (sampleService.handle 5 sampleHalf).2.sessions := by
  have hreached : Reached sampleSettings RuleTable.empty true 5 sampleService :=
    ((Reached.start 0).answer (sampleOpening "")).wait (by decide)
  have hmissing : isRefused (sampleService.handle 5 sampleMissing).1 = true := by decide +kernel
  have hhalf : isRefused (sampleService.handle 5 sampleHalf).1 = true := by decide +kernel
  have hnew : sampleService.HasNewIds := ⟨by decide +kernel, by decide +kernel⟩
  exact ⟨hmissing, (sameContents_of_refused hreached hmissing).1 (by decide +kernel), hhalf,
    (sameContents_of_refused hreached hhalf).2 (by decide +kernel) hnew (by decide +kernel)⟩

end StylesheetTrace.Service
