import StylesheetTrace.Proofs.Finding.Soundness
import StylesheetTrace.Proofs.Output.Clean
import StylesheetTrace.Proofs.Run.Result

/-!
# The lines of a result

The entries and the issues of a run stay inside the clean output, however broken the raw output and
the reports are (`run_within`). Only a schema log may send an issue out of it, by the line that it
quotes.
-/

namespace StylesheetTrace

open StylesheetTrace.Text StylesheetTrace.Report StylesheetTrace.Finding

/-- The lines among which an issue is traced are as many as those of the clean output, unless that
is empty and none is searched. -/
theorem length_linesOf (text : String) :
    (if text.isEmpty then [] else linesOf text).length ≤ (splitOn '\n' text.toList).length := by
  split
  · exact Nat.zero_le _
  · rw [linesOf, List.length_map, length_lines]

/-- Issues on lines of the clean output are traced to lines of it, when the entries are on such
lines. -/
theorem isLine_of_mem_traceIssues {table : RuleTable} {roots : List String} {output : Output.Split}
    (hentries : ∀ e ∈ output.entries, output.IsLine e.outputLine) {issues : List Issue}
    (hissues : ∀ i ∈ issues, output.IsLine i.line) :
    ∀ d ∈ traceIssues table roots output.entries (some output.text) issues,
      output.IsLine d.issue.line := by
  intro d hd
  unfold traceIssues at hd
  simp only [Option.getD_some] at hd
  split at hd
  · obtain ⟨i, hi, rfl⟩ := List.mem_map.mp hd
    exact hissues i hi
  · obtain ⟨i, hi, rfl⟩ := List.mem_map.mp hd
    rcases line_traceTo (sorted output.entries)
        (if output.text.isEmpty then [] else linesOf output.text)
        (names table roots i.message i.ruleId) i with ⟨e, he, hline⟩ | ⟨hpos, hle⟩ | hline
    · rw [traceIssue, hline]
      exact hentries e (mem_sorted.mp he)
    · exact ⟨hpos, Nat.le_trans hle (length_linesOf output.text)⟩
    · rw [traceIssue, hline]
      exact hissues i hi

/-- The entries of a run stand in the order of their lines, and each is on a line of the clean
output. So is every issue of an assertion report, and every traced issue too, provided that the
lines which the schema logs quote are lines of the clean output. -/
theorem run_within {t : Tracer} {raw : String} {reports : List ValidatorReport}
    {program : Option String} {r : RunResult} (h : t.run raw reports program = .ok r) :
    r.output.entries.Pairwise (fun d e => d.outputLine ≤ e.outputLine) ∧
      (∀ e ∈ r.output.entries, r.output.IsLine e.outputLine) ∧
      (∀ i ∈ r.issues, ∃ report ∈ reports, t.States r.output.lines report i) ∧
      (∀ report ∈ reports, report.kind = .svrl →
        ∀ i, t.States r.output.lines report i → r.output.IsLine i.line) ∧
      ((∀ report ∈ reports, report.kind = .xmllint →
          ∀ k ∈ quotedLines report.content, r.output.IsLine k) →
        ∀ d ∈ r.traced, r.output.IsLine d.issue.line) := by
  have hsplit : Output.split t.sentinel raw = .ok r.output := by
    obtain ⟨output, found, hsplit, -, -, rfl⟩ := Tracer.run_eq_ok_iff.mp h
    exact hsplit
  obtain ⟨hsorted, hentries⟩ := Output.entries_of_split hsplit
  have hsvrl : ∀ report ∈ reports, report.kind = .svrl →
      ∀ i, t.States r.output.lines report i → r.output.IsLine i.line := by
    intro report _ hkind i hi
    rcases (hi.of_svrl hkind).2 with hone | ⟨hpos, hle⟩
    · rw [hone]
      exact r.output.isLine_one
    · rw [← Output.length_lines_of_split hsplit] at hle
      exact ⟨hpos, hle⟩
  refine ⟨hsorted, hentries, fun i hi => (Tracer.mem_issues h).mp hi, hsvrl, fun hquoted => ?_⟩
  have hissues : ∀ i ∈ r.issues, r.output.IsLine i.line := by
    intro i hi
    obtain ⟨report, hreport, hstates⟩ := (Tracer.mem_issues h).mp hi
    cases hkind : report.kind with
    | svrl => exact hsvrl report hreport hkind i hstates
    | xmllint =>
      -- The line is one that the log quotes, and that is not zero.
      obtain ⟨-, -, k, hk, hline⟩ := hstates.of_xmllint hkind
      have hkline := hquoted report hreport hkind k hk
      rw [hline, Nat.max_eq_left hkline.1]
      exact hkline
  have htraced : r.traced =
      traceIssues t.table rootElements r.output.entries (some r.output.text) r.issues := by
    obtain ⟨output, found, -, -, -, rfl⟩ := Tracer.run_eq_ok_iff.mp h
    rfl
  rw [htraced]
  exact isLine_of_mem_traceIssues hentries hissues

/-- A raw output of three lines between two markers. -/
def sampleRaw : String :=
  "<!--T|f.xsl|7|a-->\n<a>\n  <b/>\n</a>\n<!--T|f.xsl|8|c-->"

/-- An assertion about the second line of the sample and a schema error on the third. -/
def sampleReports : List ValidatorReport :=
  [⟨.peppol, .svrl, "<failed-assert location=\"/a/b\"><text>no</text></failed-assert>"⟩,
    ⟨.xsd, .xmllint, "o:3: parser error : x"⟩]

/-- The result of the sample. -/
def sampleResult : RunResult :=
  let failure : Issue := ⟨2, 0, "no", .error, none, .peppol⟩
  let malformed : Issue := ⟨3, 0, "x", .error, none, .xsd⟩
  { output := ⟨["<a>", "  <b/>", "</a>"], [⟨1, ⟨"f.xsl", 7, "a"⟩⟩]⟩
    document := none
    issues := [failure, malformed]
    traced := [⟨failure, none⟩, ⟨malformed, some ⟨"f.xsl", 7, "a"⟩⟩]
    verdicts := [(.peppol, false), (.xsd, false)]
    suggestions := [] }

/-- Both issues of the sample are traced to lines of its clean output. -/
theorem run_within_sample :
    (⟨"T", 200, RuleTable.empty⟩ : Tracer).run sampleRaw sampleReports none = .ok sampleResult ∧
      (∀ e ∈ sampleResult.output.entries, sampleResult.output.IsLine e.outputLine) ∧
      ∀ d ∈ sampleResult.traced, sampleResult.output.IsLine d.issue.line := by
  have hrun : (⟨"T", 200, RuleTable.empty⟩ : Tracer).run sampleRaw sampleReports none =
      .ok sampleResult := by
    decide +kernel
  have hquoted : ∀ report ∈ sampleReports, report.kind = .xmllint →
      ∀ k ∈ quotedLines report.content, sampleResult.output.IsLine k := by
    decide +kernel
  obtain ⟨-, hentries, -, -, htraced⟩ := run_within hrun
  exact ⟨hrun, hentries, htraced hquoted⟩

end StylesheetTrace
