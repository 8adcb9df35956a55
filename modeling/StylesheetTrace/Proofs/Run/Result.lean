import StylesheetTrace.Proofs.Location.Resolve
import StylesheetTrace.Proofs.Report.SchemaLog
import StylesheetTrace.Run

/-!
# What the result of a run is made of

A run has a result exactly when its raw output is split and each of its reports is read
(`run_eq_ok_iff`). The issues of the result are those that the reports state (`mem_issues`). An
issue of an assertion report bears the source under which the report was handed in, and stands on a
line of the clean output; an issue of a schema log is an error of the schema, on a line that the log
quotes or on the first one.
-/

namespace StylesheetTrace.Tracer

open StylesheetTrace.Text StylesheetTrace.Location StylesheetTrace.Report

variable {t : Tracer}

/-- A run has a result exactly when its raw output is split and each of its reports is read, and
then the result is that of the split output and the reports with their issues. -/
theorem run_eq_ok_iff {raw : String} {reports : List ValidatorReport} {program : Option String}
    {r : RunResult} :
    t.run raw reports program = .ok r ↔
      ∃ output found, Output.split t.sentinel raw = .ok output ∧ found.map Prod.fst = reports ∧
        (∀ f ∈ found, t.reportIssues output.lines f.1 = .ok f.2) ∧
        t.resultOf output found program = r := by
  unfold run
  rw [bind_eq_ok]
  simp only [mapError_eq_ok, bind_eq_ok, mapM_pair_eq_ok, pure, Except.pure, Except.ok.injEq]
  constructor
  · rintro ⟨output, hsplit, found, ⟨hreports, hread⟩, hr⟩
    exact ⟨output, found, hsplit, hreports, hread, hr⟩
  · rintro ⟨output, found, hsplit, hreports, hread, hr⟩
    exact ⟨output, hsplit, found, ⟨hreports, hread⟩, hr⟩

/-! ## Issues of a report -/

/-- The report states the issue on a clean output of the given lines. -/
def States (t : Tracer) (docLines : List String) (report : ValidatorReport) (i : Issue) : Prop :=
  ∃ issues, t.reportIssues docLines report = .ok issues ∧ i ∈ issues

/-- An issue of an assertion report bears the source of the report and stands on one of the lines,
or on the first where none is found. -/
theorem States.of_svrl {docLines : List String} {report : ValidatorReport} {i : Issue}
    (h : t.States docLines report i) (hkind : report.kind = .svrl) :
    i.source = report.source ∧ (i.line = 1 ∨ 1 ≤ i.line ∧ i.line ≤ docLines.length) := by
  obtain ⟨issues, hissues, hi⟩ := h
  unfold reportIssues at hissues
  rw [hkind] at hissues
  obtain ⟨vs, -, hissues⟩ := bind_eq_ok.mp hissues
  obtain ⟨v, -, hissue⟩ := (mem_mapM_eq_ok (mapError_eq_ok.mp hissues)).mp hi
  obtain ⟨path, -, rfl⟩ := map_eq_ok.mp hissue
  refine ⟨rfl, ?_⟩
  cases hlocate : locate? path docLines with
  | none => exact Or.inl rfl
  | some k => exact Or.inr (locate?_within hlocate)

/-- An issue of a schema log is an error of the schema, on a line that the log quotes or on the
first. -/
theorem States.of_xmllint {docLines : List String} {report : ValidatorReport} {i : Issue}
    (h : t.States docLines report i) (hkind : report.kind = .xmllint) :
    i.source = .xsd ∧ i.isError = true ∧ ∃ k ∈ quotedLines report.content, i.line = max k 1 := by
  obtain ⟨issues, hissues, hi⟩ := h
  unfold reportIssues at hissues
  rw [hkind] at hissues
  obtain ⟨hsource, hseverity, hline⟩ := of_mem_logIssues (mapError_eq_ok.mp hissues) hi
  exact ⟨hsource, by rw [Issue.isError, hseverity]; rfl, hline⟩

/-! ## Issues of a run -/

/-- The issues of a run are those that its reports state. -/
theorem mem_issues {raw : String} {reports : List ValidatorReport} {program : Option String}
    {r : RunResult} (h : t.run raw reports program = .ok r) {i : Issue} :
    i ∈ r.issues ↔ ∃ report ∈ reports, t.States r.output.lines report i := by
  obtain ⟨output, found, -, rfl, hread, rfl⟩ := run_eq_ok_iff.mp h
  change i ∈ found.flatMap Prod.snd ↔ _
  rw [List.mem_flatMap]
  constructor
  · rintro ⟨f, hf, hi⟩
    exact ⟨f.1, List.mem_map_of_mem hf, f.2, hread f hf, hi⟩
  · rintro ⟨report, hreport, issues, hissues, hi⟩
    obtain ⟨f, hf, rfl⟩ := List.mem_map.mp hreport
    obtain rfl := Except.ok.inj (hissues.symm.trans (hread f hf))
    exact ⟨f, hf, hi⟩

end StylesheetTrace.Tracer
