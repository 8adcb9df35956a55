import StylesheetTrace.Finding.Retracing

/-!
# Tracing is settled at once

Where an issue goes is decided by the names that it is about and, if these lead nowhere, by its line.
From the line to which it has gone it goes nowhere else (`landing_landing`), and there it gets the
origin that it already has. So issues that are traced again with the same entries and the same output
stay as they are (`retraceIssues_settled`), whatever origin they claimed before they were traced; and
an issue that claims none is traced again as it is traced (`fieldsOf_traceIssue`).
-/

namespace StylesheetTrace.Finding

open StylesheetTrace.Validation

section

variable {entries : List TraceEntry} {lines names : List String}

/-- An issue goes where its landing says. -/
theorem traceTo_eq_placed (t : TracedIssue) :
    traceTo entries lines names t =
      placed t (landing entries lines names t.issue.line).line
        (landing entries lines names t.issue.line).entry := by
  unfold traceTo landing
  cases namedEntry? entries names with
  | some e => rfl
  | none =>
    cases namedLine? lines names with
    | some line => rfl
    | none =>
      dsimp only [linked]
      split <;> rfl

/-- An issue goes nowhere from the line to which it goes, and gets the same origin there. -/
theorem landing_landing (line : Nat) :
    landing entries lines names (landing entries lines names line).line =
      landing entries lines names line := by
  unfold landing
  cases namedEntry? entries names with
  | some e => rfl
  | none =>
    cases namedLine? lines names with
    | some found => rfl
    | none => rfl

/-- An issue put twice where it goes is there. -/
theorem landed_landed (t : TracedFields) (place : Landing) :
    landed (landed t place) place = landed t place := by
  unfold landed
  cases place.entry <;> rfl

/-- A traced issue put where it goes, part by part. -/
theorem fieldsOf_placed (t : TracedIssue) (place : Landing) :
    fieldsOf (placed t place.line place.entry) = landed (fieldsOf t) place := by
  unfold landed
  cases place.entry <;> rfl

/-- An issue keeps its message and its rule where it goes, and is on the line of its landing. -/
theorem issue_landed (t : TracedFields) (place : Landing) :
    (landed t place).issue = { t.issue with line := place.line } := by
  unfold landed
  cases place.entry <;> rfl

/-- An issue that claims no origin is traced as one with claims. -/
theorem fieldsOf_traceIssue (table : RuleTable) (roots : List String) (issue : Issue) :
    fieldsOf (traceIssue table roots entries lines issue) =
      retraceIssue table roots entries lines (fieldsOf (.ofIssue issue)) := by
  rw [traceIssue, traceTo_eq_placed, fieldsOf_placed]
  rfl

/-- A traced issue is not changed when it is traced again. -/
theorem retraceIssue_retraceIssue (table : RuleTable) (roots : List String) (t : TracedFields) :
    retraceIssue table roots entries lines (retraceIssue table roots entries lines t) =
      retraceIssue table roots entries lines t := by
  -- Its names are the same, since these are read from its message and its rule.
  generalize hplace : landing entries lines
    (Finding.names table roots t.issue.message t.issue.ruleId) t.issue.line = place
  have hagain : landing entries lines (Finding.names table roots t.issue.message t.issue.ruleId)
      place.line = place := by
    rw [← hplace, landing_landing]
  have hfirst : retraceIssue table roots entries lines t = landed t place := by
    rw [retraceIssue, hplace]
  rw [hfirst, retraceIssue, issue_landed]
  dsimp only
  rw [hagain, landed_landed]

end

section

variable (table : RuleTable) (roots : List String) (entries : List TraceEntry)
  (output : Option String)

/-- Issues that claim no origin are traced as issues with claims. -/
theorem map_fieldsOf_traceIssues (issues : List Issue) :
    (traceIssues table roots entries output issues).map fieldsOf =
      retraceIssues table roots entries output (issues.map fun i => fieldsOf (.ofIssue i)) := by
  unfold traceIssues retraceIssues
  dsimp only
  split
  · rw [List.map_map]
    rfl
  · rw [List.map_map, List.map_map]
    exact List.map_congr_left fun issue _ => fieldsOf_traceIssue table roots issue

/-- Issues that have been traced are not changed when they are traced again. -/
theorem retraceIssues_retraceIssues (ts : List TracedFields) :
    retraceIssues table roots entries output (retraceIssues table roots entries output ts) =
      retraceIssues table roots entries output ts := by
  unfold retraceIssues
  dsimp only
  split
  · rfl
  · rw [List.map_map]
    exact List.map_congr_left fun t _ => retraceIssue_retraceIssue table roots t

/-- Tracing is settled at once: issues that have been traced, be it from issues that claim an origin
or from those that claim none, stay as they are when they are traced again with the same entries and
the same output. -/
theorem retraceIssues_settled :
    (∀ ts : List TracedFields,
      retraceIssues table roots entries output (retraceIssues table roots entries output ts) =
        retraceIssues table roots entries output ts) ∧
    ∀ issues : List Issue,
      (traceIssues table roots entries output issues).map fieldsOf =
        retraceIssues table roots entries output (issues.map fun i => fieldsOf (.ofIssue i)) ∧
      retraceIssues table roots entries output
          ((traceIssues table roots entries output issues).map fieldsOf) =
        (traceIssues table roots entries output issues).map fieldsOf := by
  refine ⟨retraceIssues_retraceIssues table roots entries output, fun issues => ?_⟩
  have hplain := map_fieldsOf_traceIssues table roots entries output issues
  refine ⟨hplain, ?_⟩
  rw [hplain, retraceIssues_retraceIssues]

end

end StylesheetTrace.Finding
