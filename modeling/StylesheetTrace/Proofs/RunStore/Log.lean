import StylesheetTrace.Proofs.RunStore.Step

/-!
# The store as a log

A store is an append-only log from which runs can be removed. The log is read off the answers alone:
a run that a trace answered is in it until a removal of its identifier succeeds (`surviving`). As
long as no identifier is handed out twice, the store holds this log at every time (`runs_run`), and
each further action answers what the log says (`Shows`): a removal brings an older run of the
document to the fore again, and a step that failed leaves no trace (`shows_surviving`).
-/

namespace StylesheetTrace.RunStore

/-! ## The log of a history -/

/-- The runs that were recorded, in order. -/
def recordings (h : List (Action × Answer)) : List RunRecord := h.filterMap recorded?

/-- The identifiers of the runs that were removed, in order. -/
def removals (h : List (Action × Answer)) : List String := h.filterMap removed?

/-- The run is not removed in the history. -/
def staysIn (h : List (Action × Answer)) (r : RunRecord) : Bool := !(removals h).contains r.id

/-- The runs that were recorded and not removed afterwards, oldest first. -/
def surviving : List (Action × Answer) → List RunRecord
  | [] => []
  | p :: h => (recorded? p).toList.filter (staysIn h) ++ surviving h

/-- The store after the actions, when it had no runs before. -/
def after (t : Tracer) (as : List Action) : RunStore := empty.run t as

section

variable {t : Tracer} {s : RunStore}

/-- The recordings of a history begin with that of its first action. -/
theorem recordings_cons (p : Action × Answer) (h : List (Action × Answer)) :
    recordings (p :: h) = (recorded? p).toList ++ recordings h := by
  unfold recordings
  rw [List.filterMap_cons]
  cases recorded? p <;> rfl

/-- A run stays in a history when its first action does not remove it, and no later one does. -/
theorem staysIn_cons (p : Action × Answer) (h : List (Action × Answer)) (r : RunRecord) :
    staysIn (p :: h) r = (staysIn h r && !(removed? p).any (r.id == ·)) := by
  unfold staysIn removals
  rw [List.filterMap_cons]
  cases removed? p with
  | none => rw [Option.any_none, Bool.not_false, Bool.and_true]
  | some id =>
    rw [List.contains_cons, Bool.not_or, Bool.and_comm]
    rfl

/-- As long as identifiers are handed out once, a step keeps those in use apart from those that are
still to come. -/
theorem nodup_next (a : Action) {h : List (Action × Answer)}
    (hids : (s.ids ++ (recordings ((a, (s.step t a).1) :: h)).map RunRecord.id).Nodup) :
    ((s.next t a).ids ++ (recordings h).map RunRecord.id).Nodup := by
  rw [recordings_cons] at hids
  rcases step_cases t s a with ⟨r, hrec, -, hnext, -⟩ | ⟨id, hrec, -, hnext, -⟩ | ⟨hrec, -, hnext⟩
  · rw [hrec, Option.toList_some, List.singleton_append, List.map_cons] at hids
    have hnew : r.id ∉ s.ids := fun hmem =>
      (List.nodup_append.mp hids).2.2 r.id hmem r.id List.mem_cons_self rfl
    have hnow : (s.next t a).ids = s.ids ++ [r.id] := by
      rw [hnext, record_of_not_mem hnew]
      exact List.map_append
    rw [hnow, List.append_assoc]
    exact hids
  · rw [hrec] at hids
    have hfewer : (s.next t a).ids.Sublist s.ids := by
      rw [hnext]
      exact List.filter_sublist.map RunRecord.id
    exact hids.sublist (hfewer.append (List.Sublist.refl _))
  · rw [hrec] at hids
    rw [hnext]
    exact hids

/-- A step moves a run from what is still to be recorded into the store, or strikes one that is
there: what the store and the rest of the history hold together stays the same. -/
theorem runs_next (a : Action) {h : List (Action × Answer)}
    (hids : (s.ids ++ (recordings ((a, (s.step t a).1) :: h)).map RunRecord.id).Nodup) :
    (s.next t a).runs.filter (staysIn h) ++ surviving h =
      s.runs.filter (staysIn ((a, (s.step t a).1) :: h)) ++
        surviving ((a, (s.step t a).1) :: h) := by
  rw [surviving]
  rcases step_cases t s a with ⟨r, hrec, hrem, hnext, -⟩ | ⟨id, hrec, hrem, hnext, -⟩ |
    ⟨hrec, hrem, hnext⟩
  · -- The run is new, so that it goes behind the others.
    rw [recordings_cons, hrec, Option.toList_some, List.singleton_append, List.map_cons] at hids
    have hnew : r.id ∉ s.ids := fun hmem =>
      (List.nodup_append.mp hids).2.2 r.id hmem r.id List.mem_cons_self rfl
    have hstays : staysIn ((a, (s.step t a).1) :: h) = staysIn h := by
      funext q
      rw [staysIn_cons, hrem, Option.any_none, Bool.not_false, Bool.and_true]
    rw [hnext, record_of_not_mem hnew, hstays, hrec, List.filter_append, List.append_assoc]
    rfl
  · -- A removal strikes the run from the store before the rest of the history.
    have hstruck : s.runs.filter (staysIn ((a, (s.step t a).1) :: h)) =
        (s.runs.filter fun r => r.id != id).filter (staysIn h) := by
      rw [List.filter_filter]
      refine List.filter_congr fun q _ => ?_
      rw [staysIn_cons, hrem]
      rfl
    rw [hnext, hstruck, hrec]
    rfl
  · have hstays : staysIn ((a, (s.step t a).1) :: h) = staysIn h := by
      funext q
      rw [staysIn_cons, hrem, Option.any_none, Bool.not_false, Bool.and_true]
    rw [hnext, hstays, hrec]
    rfl

/-- The store holds the runs it had and those that were recorded, but for those removed since. -/
theorem runs_run {as : List Action}
    (hids : (s.ids ++ (recordings (s.history t as)).map RunRecord.id).Nodup) :
    (s.run t as).runs =
      s.runs.filter (staysIn (s.history t as)) ++ surviving (s.history t as) := by
  induction as generalizing s with
  | nil =>
    have hall : s.runs.filter (staysIn []) = s.runs := List.filter_true s.runs
    show s.runs = s.runs.filter (staysIn []) ++ []
    rw [hall, List.append_nil]
  | cons a as ih =>
    calc (s.run t (a :: as)).runs
        = ((s.next t a).run t as).runs := rfl
      _ = (s.next t a).runs.filter (staysIn ((s.next t a).history t as)) ++
            surviving ((s.next t a).history t as) := ih (nodup_next a hids)
      _ = s.runs.filter (staysIn (s.history t (a :: as))) ++
            surviving (s.history t (a :: as)) := runs_next a hids

/-- What survives was recorded. -/
theorem surviving_sublist (h : List (Action × Answer)) : (surviving h).Sublist (recordings h) := by
  induction h with
  | nil => exact List.Sublist.refl _
  | cons p h ih =>
    rw [surviving, recordings_cons]
    exact List.filter_sublist.append ih

/-! ## What the log says -/

/-- Every action on the store answers what the log of its runs says. -/
structure Shows (t : Tracer) (s : RunStore) (log : List RunRecord) : Prop where
  /-- All runs of the log are listed, in their order. -/
  listed : (s.step t .list).1 = .listed (log.map RunRecord.summary)
  /-- The runs of the log are counted. -/
  counted : (s.step t .size).1 = .counted log.length
  /-- A run of the log is found under its identifier. -/
  found : ∀ r ∈ log, (s.step t (.get r.id)).1 = .found (.ok r)
  /-- The summary under an identifier of the log is that of its run. -/
  summarized : ∀ r ∈ log, (s.step t (.summary r.id)).1 = .summarized (.ok r.summary)
  /-- The issues on a line are the traced issues of the run that are on it, in their order. -/
  located : ∀ r ∈ log, ∀ line : Int, (s.step t (.issuesAt r.id line)).1 =
    .located (.ok (r.result.traced.filter fun i => (i.issue.line : Int) == line))
  /-- A run of the log can be removed. -/
  removed : ∀ r ∈ log, (s.step t (.remove r.id)).1 = .removed (.ok ())
  /-- Nothing is found under any other identifier, and nothing is removed. -/
  missing : ∀ id, id ∉ log.map RunRecord.id →
    (s.step t (.get id)).1 = .found (.error ⟨id⟩) ∧
      (s.step t (.summary id)).1 = .summarized (.error ⟨id⟩) ∧
      (∀ line, (s.step t (.issuesAt id line)).1 = .located (.error ⟨id⟩)) ∧
      (s.step t (.remove id)).1 = .removed (.error ⟨id⟩)
  /-- The latest run of a document is the last one of the log. -/
  latest : ∀ document r, (s.step t (.latest document)).1 = .latest (some r) ↔
    ∃ older newer, log = older ++ r :: newer ∧ r.document = document ∧
      ∀ q ∈ newer, q.document ≠ document
  /-- There is no latest run of a document exactly when the log has none of it. -/
  noLatest : ∀ document, (s.step t (.latest document)).1 = .latest none ↔
    ∀ r ∈ log, r.document ≠ document
  /-- A trace answers a run with the result that the tracer gives, or the tracer's error. -/
  traced : ∀ id now q, (s.step t (.trace id now q)).1 =
    .traced ((t.run q.raw q.reports q.program).map fun result => ⟨id, q.document, result, now⟩)

/-- The latest run of a document is the last one in the order of recording. -/
theorem latest?_eq_some {document : String} {r : RunRecord} :
    s.latest? document = some r ↔ ∃ older newer, s.runs = older ++ r :: newer ∧
      r.document = document ∧ ∀ q ∈ newer, q.document ≠ document := by
  unfold latest?
  rw [List.find?_eq_some_iff_append]
  constructor
  · rintro ⟨hr, front, back, hruns, hfront⟩
    refine ⟨back.reverse, front.reverse, ?_, beq_iff_eq.mp hr, fun q hq => ?_⟩
    · have h := congrArg List.reverse hruns
      rw [List.reverse_reverse, List.reverse_append, List.reverse_cons, List.append_assoc,
        List.singleton_append] at h
      exact h
    · have h := hfront q (List.mem_reverse.mp hq)
      simpa using h
  · rintro ⟨older, newer, hruns, hr, hnewer⟩
    refine ⟨beq_iff_eq.mpr hr, newer.reverse, older.reverse, ?_, fun q hq => ?_⟩
    · rw [hruns, List.reverse_append, List.reverse_cons, List.append_assoc, List.singleton_append]
    · simpa using hnewer q (List.mem_reverse.mp hq)

/-- There is no latest run of a document of which there is no run. -/
theorem latest?_eq_none {document : String} :
    s.latest? document = none ↔ ∀ r ∈ s.runs, r.document ≠ document := by
  unfold latest?
  rw [List.find?_eq_none]
  simp

/-- A store shows its runs, where no two have one identifier. -/
theorem shows_runs (t : Tracer) (hids : s.ids.Nodup) : Shows t s s.runs where
  listed := rfl
  counted := rfl
  found r hr := congrArg Answer.found (get_of_mem hids hr)
  summarized r hr := by
    show Answer.summarized ((s.get r.id).map RunRecord.summary) = _
    rw [get_of_mem hids hr]
    rfl
  located r hr line := by
    show Answer.located ((s.get r.id).map fun r => r.issuesAt line) = _
    rw [get_of_mem hids hr]
    rfl
  removed r hr := by
    have hmem : r.id ∈ s.ids := List.mem_map_of_mem hr
    rw [step_remove, if_pos hmem]
  missing id hid := by
    change id ∉ s.ids at hid
    have hget : s.get id = .error ⟨id⟩ := get_of_not_mem hid
    refine ⟨congrArg Answer.found hget, ?_, fun line => ?_, ?_⟩
    · show Answer.summarized ((s.get id).map RunRecord.summary) = _
      rw [hget]
      rfl
    · show Answer.located ((s.get id).map fun r => r.issuesAt line) = _
      rw [hget]
      rfl
    · rw [step_remove, if_neg hid]
  latest document r := by
    show Answer.latest (s.latest? document) = _ ↔ _
    rw [Answer.latest.injEq]
    exact latest?_eq_some
  noLatest document := by
    show Answer.latest (s.latest? document) = _ ↔ _
    rw [Answer.latest.injEq]
    exact latest?_eq_none
  traced id now q := by
    rw [step_trace]
    cases t.run q.raw q.reports q.program with
    | ok result => rfl
    | error e => rfl

end

/-- After any actions, provided that no identifier was handed out twice, the store shows the runs
that were recorded and not removed since, in the order of their recording; and an action that fails
is as good as none for all actions that follow. -/
theorem shows_surviving (t : Tracer) (as : List Action)
    (hids : ((recordings (empty.history t as)).map RunRecord.id).Nodup) :
    Shows t (after t as) (surviving (empty.history t as)) ∧
      ∀ a, ((after t as).step t a).1.Failed → ∀ later,
        (after t (as ++ [a])).history t later = (after t as).history t later := by
  have hruns : (after t as).runs = surviving (empty.history t as) :=
    runs_run (t := t) (s := empty) hids
  constructor
  · have hdistinct : (after t as).ids.Nodup := by
      unfold ids
      rw [hruns]
      exact hids.sublist ((surviving_sublist _).map RunRecord.id)
    rw [← hruns]
    exact shows_runs t hdistinct
  · intro a hfailed later
    have hstore : after t (as ++ [a]) = (after t as).next t a := List.foldl_concat ..
    rw [hstore, next_of_failed hfailed]

/-- A tracer that refuses any assertion report. -/
def sampleTracer : Tracer := ⟨"TRACE", -1, RuleTable.empty⟩

/-- Two runs of one document are recorded, a third one fails, and the second is removed. -/
def sampleActions : List Action :=
  [.trace "1" 0 ⟨"d", "", [], none⟩, .trace "2" 5 ⟨"d", "", [], none⟩,
    .trace "3" 7 ⟨"d", "", [⟨.peppol, .svrl, ""⟩], none⟩, .remove "2"]

/-- The first run is the latest again, and stays so after a removal that fails. -/
theorem shows_surviving_sample :
    ∃ r, r.id = "1" ∧ r.recordedAt = 0 ∧
      ((after sampleTracer sampleActions).step sampleTracer (.latest "d")).1 = .latest (some r) ∧
      (after sampleTracer (sampleActions ++ [.remove "2"])).history sampleTracer [.size] =
        [(.size, .counted 1)] := by
  have hids : ((recordings (empty.history sampleTracer sampleActions)).map RunRecord.id).Nodup := by
    have htwo : (recordings (empty.history sampleTracer sampleActions)).map RunRecord.id =
        ["1", "2"] := by rfl
    rw [htwo]
    decide
  obtain ⟨hshows, hfailed⟩ := shows_surviving sampleTracer sampleActions hids
  obtain ⟨r, hid, htime, hdocument, hlog⟩ : ∃ r : RunRecord, r.id = "1" ∧ r.recordedAt = 0 ∧
      r.document = "d" ∧ surviving (empty.history sampleTracer sampleActions) = [r] :=
    ⟨_, rfl, rfl, rfl, rfl⟩
  refine ⟨r, hid, htime, (hshows.latest "d" r).mpr ⟨[], [], hlog, hdocument, by simp⟩, ?_⟩
  have hgone : "2" ∉ (surviving (empty.history sampleTracer sampleActions)).map RunRecord.id := by
    rw [hlog, List.map_singleton, hid]
    decide
  have hremoval := (hshows.missing "2" hgone).2.2.2
  rw [hfailed (.remove "2") (by rw [hremoval]; exact trivial)]
  have hcount := hshows.counted
  rw [hlog] at hcount
  show [(Action.size, ((after sampleTracer sampleActions).step sampleTracer .size).1)] = _
  rw [hcount]
  rfl

end StylesheetTrace.RunStore
