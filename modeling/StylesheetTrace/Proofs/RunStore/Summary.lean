import StylesheetTrace.Proofs.Run.Verdict
import StylesheetTrace.Proofs.RunStore.Log

/-!
# The summaries of a store

A store is built up by recording results that tracers gave and by removing runs, as every sequence
of actions does (`built_after`). Whatever was recorded in whatever order, the summary of a run
counts no error exactly when all validators passed in it (`errors_eq_zero_iff`).
-/

namespace StylesheetTrace.RunStore

/-- A store with runs that tracers gave a result for, some of which may have been removed. -/
inductive Built : RunStore → Prop
  | empty : Built .empty
  | record {s : RunStore} {t : Tracer} {raw : String} {reports : List ValidatorReport}
      {program : Option String} {result : RunResult} (hs : Built s)
      (hrun : t.run raw reports program = .ok result) (id document : String) (now : Int) :
      Built (s.record ⟨id, document, result, now⟩)
  | remove {s s' : RunStore} {id : String} (hs : Built s) (h : s.remove id = .ok s') : Built s'

/-- A recorded run is among the runs of the store, and no other is new. -/
theorem eq_or_mem_of_mem_record {s : RunStore} {q r : RunRecord} (h : r ∈ (s.record q).runs) :
    r = q ∨ r ∈ s.runs := by
  unfold record at h
  split at h
  · obtain ⟨p, hp, rfl⟩ := List.mem_map.mp h
    split
    · exact Or.inl rfl
    · exact Or.inr hp
  · rcases List.mem_append.mp h with h | h
    · exact Or.inr h
    · exact Or.inl (List.mem_singleton.mp h)

/-- The result of every run in a store is one that a tracer gave. -/
theorem Built.exists_run {s : RunStore} (hs : s.Built) :
    ∀ r ∈ s.runs, ∃ (t : Tracer) (raw : String) (reports : List ValidatorReport)
      (program : Option String), t.run raw reports program = .ok r.result := by
  induction hs with
  | empty => exact List.forall_mem_nil _
  | record _ hrun id document now ih =>
    intro r hr
    rcases eq_or_mem_of_mem_record hr with rfl | hr
    · exact ⟨_, _, _, _, hrun⟩
    · exact ih r hr
  | remove _ h ih =>
    obtain ⟨_, -, rfl⟩ := Text.map_eq_ok.mp h
    exact fun r hr => ih r (List.mem_filter.mp hr).1

/-- An action leaves a store that is built up. -/
theorem built_next (t : Tracer) {s : RunStore} (hs : s.Built) (a : Action) :
    (s.next t a).Built := by
  unfold next
  cases a with
  | trace id now q =>
    rw [step_trace]
    cases hrun : t.run q.raw q.reports q.program with
    | ok result => exact hs.record hrun id q.document now
    | error e => exact hs
  | remove id =>
    cases hremove : s.remove id with
    | ok s' =>
      simp only [step, hremove]
      exact hs.remove hremove
    | error e =>
      simp only [step, hremove]
      exact hs
  | get | list | latest | summary | issuesAt | size => exact hs

/-- Every sequence of actions builds a store up. -/
theorem built_after (t : Tracer) (as : List Action) : (after t as).Built := by
  have hrun : ∀ s : RunStore, s.Built → (s.run t as).Built := by
    induction as with
    | nil => exact fun s hs => hs
    | cons a as ih => exact fun s hs => ih (s.next t a) (built_next t hs a)
  exact hrun .empty .empty

/-- The summary of a run counts no error exactly when all validators passed. -/
theorem Built.errors_eq_zero_iff {s : RunStore} (hs : s.Built) {m : RunSummary}
    (hm : m ∈ s.summaries) : m.errors = 0 ↔ ∀ p ∈ m.verdicts, p.2 = true := by
  obtain ⟨r, hr, rfl⟩ := List.mem_map.mp hm
  obtain ⟨t, raw, reports, program, hrun⟩ := hs.exists_run r hr
  exact (all_passed_iff hrun).symm

end StylesheetTrace.RunStore
