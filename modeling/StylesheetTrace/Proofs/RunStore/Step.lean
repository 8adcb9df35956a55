import Mathlib.Data.List.Nodup
import StylesheetTrace.RunStore

/-!
# Steps on a store

What is done with a store of runs is a sequence of actions. `step` performs one with the functions
of `RunStore.lean`; a trace comes with the identifier and the time that its run is given in case it
is recorded. A step does one of three things: it records a run, it removes one, or it leaves the
store as it is (`step_cases`). No proof about sequences of steps looks into the store again.
-/

namespace StylesheetTrace.RunStore

/-! ## Actions and runs of actions -/

/-- What is done with a store. -/
inductive Action where
  | trace (id : String) (now : Int) (q : RunRequest)
  | get (id : String)
  | remove (id : String)
  | list
  | latest (document : String)
  | summary (id : String)
  | issuesAt (id : String) (line : Int)
  | size

/-- What an action answers. -/
inductive Answer where
  | traced (answer : Except InputError RunRecord)
  | found (answer : Except RunNotFound RunRecord)
  | removed (answer : Except RunNotFound Unit)
  | listed (summaries : List RunSummary)
  | latest (r : Option RunRecord)
  | summarized (answer : Except RunNotFound RunSummary)
  | located (answer : Except RunNotFound (List TracedIssue))
  | counted (n : Nat)

/-- The answer to an action, and the store after it. -/
def step (t : Tracer) (s : RunStore) : Action → Answer × RunStore
  | .trace id now q =>
    match s.trace t id now q with
    | .ok (r, s) => (.traced (.ok r), s)
    | .error e => (.traced (.error e), s)
  | .get id => (.found (s.get id), s)
  | .remove id =>
    match s.remove id with
    | .ok s => (.removed (.ok ()), s)
    | .error e => (.removed (.error e), s)
  | .list => (.listed s.summaries, s)
  | .latest document => (.latest (s.latest? document), s)
  | .summary id => (.summarized ((s.get id).map RunRecord.summary), s)
  | .issuesAt id line => (.located ((s.get id).map fun r => r.issuesAt line), s)
  | .size => (.counted s.size, s)

/-- The store after an action. -/
def next (t : Tracer) (s : RunStore) (a : Action) : RunStore := (s.step t a).2

/-- The store after the actions. -/
def run (t : Tracer) (s : RunStore) (as : List Action) : RunStore := as.foldl (next t) s

/-- The actions with their answers. -/
def history (t : Tracer) (s : RunStore) : List Action → List (Action × Answer)
  | [] => []
  | a :: as => (a, (s.step t a).1) :: history t (s.next t a) as

/-- The action failed: the run could not be traced, or there is no run with the identifier. -/
def Answer.Failed : Answer → Prop
  | .traced (.error _) | .found (.error _) | .removed (.error _) | .summarized (.error _)
  | .located (.error _) => True
  | _ => False

/-- The run that an action recorded. -/
def recorded? : Action × Answer → Option RunRecord
  | (_, .traced (.ok r)) => some r
  | _ => none

/-- The identifier of the run that an action removed. -/
def removed? : Action × Answer → Option String
  | (.remove id, .removed (.ok _)) => some id
  | _ => none

section

variable {t : Tracer} {s : RunStore}

/-! ## What a step can do -/

/-- The identifiers of the runs, oldest first. -/
def ids (s : RunStore) : List String := s.runs.map RunRecord.id

/-- A trace answers the run with the result that the tracer gives, and records it; where the tracer
fails it records nothing. -/
theorem step_trace (t : Tracer) (s : RunStore) (id : String) (now : Int) (q : RunRequest) :
    s.step t (.trace id now q) =
      match t.run q.raw q.reports q.program with
      | .ok result =>
        (.traced (.ok ⟨id, q.document, result, now⟩), s.record ⟨id, q.document, result, now⟩)
      | .error e => (.traced (.error e), s) := by
  show (match s.trace t id now q with
    | .ok (r, s) => (Answer.traced (.ok r), s)
    | .error e => (Answer.traced (.error e), s)) = _
  unfold trace
  cases t.run q.raw q.reports q.program with
  | ok result => rfl
  | error e => rfl

/-- A run is not found exactly when none has the identifier. -/
theorem get_of_not_mem {id : String} (h : id ∉ s.ids) : s.get id = .error ⟨id⟩ := by
  have hnone : s.runs.find? (fun r => r.id == id) = none := by
    rw [List.find?_eq_none]
    intro r hr hid
    exact h (List.mem_map.mpr ⟨r, hr, beq_iff_eq.mp hid⟩)
  unfold get
  rw [hnone]

/-- A run is found under its identifier, where no two runs have one. -/
theorem get_of_mem (hids : s.ids.Nodup) {r : RunRecord} (h : r ∈ s.runs) : s.get r.id = .ok r := by
  obtain ⟨q, hq⟩ : ∃ q, s.runs.find? (fun q => q.id == r.id) = some q := by
    rw [← Option.isSome_iff_exists, List.find?_isSome]
    exact ⟨r, h, beq_self_eq_true r.id⟩
  have hid : q.id = r.id := by simpa using List.find?_some hq
  have hsame : q = r := List.inj_on_of_nodup_map hids (List.mem_of_find?_eq_some hq) h hid
  unfold get
  rw [hq, hsame]

/-- A run is found under each identifier in use. -/
theorem isOk_get_iff {id : String} : (s.get id).isOk = true ↔ id ∈ s.ids := by
  constructor
  · intro h
    by_contra hmem
    rw [get_of_not_mem hmem] at h
    exact absurd h Bool.false_ne_true
  · intro h
    obtain ⟨r, hr, rfl⟩ := List.mem_map.mp h
    have hsome : (s.runs.find? fun q => q.id == r.id).isSome = true := by
      rw [List.find?_isSome]
      exact ⟨r, hr, beq_self_eq_true r.id⟩
    obtain ⟨q, hq⟩ := Option.isSome_iff_exists.mp hsome
    unfold get
    rw [hq]
    rfl

/-- A removal succeeds under each identifier in use and takes its runs away; under any other it
fails. -/
theorem step_remove (t : Tracer) (s : RunStore) (id : String) :
    s.step t (.remove id) =
      if id ∈ s.ids then (.removed (.ok ()), ⟨s.runs.filter fun r => r.id != id⟩)
      else (.removed (.error ⟨id⟩), s) := by
  show (match s.remove id with
    | .ok s => (Answer.removed (.ok ()), s)
    | .error e => (Answer.removed (.error e), s)) = _
  unfold remove
  by_cases h : id ∈ s.ids
  · have hok : (s.get id).isOk = true := isOk_get_iff.mpr h
    rw [if_pos h]
    cases hget : s.get id with
    | ok r => rfl
    | error e =>
      rw [hget] at hok
      exact absurd hok Bool.false_ne_true
  · rw [if_neg h, get_of_not_mem h]
    rfl

/-- A run under a new identifier is recorded behind the others. -/
theorem record_of_not_mem {r : RunRecord} (h : r.id ∉ s.ids) : s.record r = ⟨s.runs ++ [r]⟩ := by
  have hnone : (s.runs.any fun q => q.id == r.id) = false := by
    rw [List.any_eq_false]
    intro q hq hid
    exact h (List.mem_map.mpr ⟨q, hq, beq_iff_eq.mp hid⟩)
  unfold record
  rw [hnone, if_neg Bool.false_ne_true]

/-- A run that was traced under a new identifier makes the store another one. -/
theorem ne_of_trace {id : String} {now : Int} {q : RunRequest} {r : RunRecord} {store : RunStore}
    (h : s.trace t id now q = .ok (r, store)) (hnew : id ∉ s.ids) : store ≠ s := by
  unfold trace at h
  cases hrun : t.run q.raw q.reports q.program with
  | error e =>
    rw [hrun] at h
    cases h
  | ok result =>
    rw [hrun] at h
    cases h
    rw [record_of_not_mem hnew]
    intro hsame
    have hlength := congrArg (fun u : RunStore => u.runs.length) hsame
    simp at hlength

/-- A step records a run, or it removes the runs of an identifier, or it leaves the store as it is;
a step that failed does the last. -/
theorem step_cases (t : Tracer) (s : RunStore) (a : Action) :
    (∃ r, recorded? (a, (s.step t a).1) = some r ∧ removed? (a, (s.step t a).1) = none ∧
      s.next t a = s.record r ∧ ¬ (s.step t a).1.Failed) ∨
    (∃ id, recorded? (a, (s.step t a).1) = none ∧ removed? (a, (s.step t a).1) = some id ∧
      s.next t a = ⟨s.runs.filter fun r => r.id != id⟩ ∧ ¬ (s.step t a).1.Failed) ∨
    (recorded? (a, (s.step t a).1) = none ∧ removed? (a, (s.step t a).1) = none ∧
      s.next t a = s) := by
  unfold next
  cases a with
  | trace id now q =>
    rw [step_trace]
    cases t.run q.raw q.reports q.program with
    | ok result => exact Or.inl ⟨_, rfl, rfl, rfl, not_false⟩
    | error e => exact Or.inr (Or.inr ⟨rfl, rfl, rfl⟩)
  | remove id =>
    rw [step_remove]
    by_cases h : id ∈ s.ids
    · rw [if_pos h]
      exact Or.inr (Or.inl ⟨id, rfl, rfl, rfl, not_false⟩)
    · rw [if_neg h]
      exact Or.inr (Or.inr ⟨rfl, rfl, rfl⟩)
  | get id => exact Or.inr (Or.inr ⟨rfl, rfl, rfl⟩)
  | list => exact Or.inr (Or.inr ⟨rfl, rfl, rfl⟩)
  | latest document => exact Or.inr (Or.inr ⟨rfl, rfl, rfl⟩)
  | summary id => exact Or.inr (Or.inr ⟨rfl, rfl, rfl⟩)
  | issuesAt id line => exact Or.inr (Or.inr ⟨rfl, rfl, rfl⟩)
  | size => exact Or.inr (Or.inr ⟨rfl, rfl, rfl⟩)

/-- A step that failed leaves the store as it is. -/
theorem next_of_failed {a : Action} (h : (s.step t a).1.Failed) : s.next t a = s := by
  rcases step_cases t s a with ⟨r, -, -, -, hdone⟩ | ⟨id, -, -, -, hdone⟩ | ⟨-, -, hsame⟩
  · exact absurd h hdone
  · exact absurd h hdone
  · exact hsame

end

end StylesheetTrace.RunStore
