import StylesheetTrace.Proofs.Output.Clean
import StylesheetTrace.Proofs.Report.Refusal
import StylesheetTrace.Proofs.Run.Result

/-!
# Runs that are refused

A run is refused for two reasons only: an assertion report is larger than the limit, or some number
is longer than any that is read, in a marker of the raw output or in a report. Apart from these,
every text is split, every report is read and every issue is traced, whatever they hold.
`run_refused_iff` says when a run is refused, and when it is for the size of a report.
-/

namespace StylesheetTrace

open StylesheetTrace.Text StylesheetTrace.Report

/-- The report is an assertion report larger than the limit. -/
def Tracer.Oversized (t : Tracer) (report : ValidatorReport) : Prop :=
  report.kind = .svrl ∧ t.reportLimit < report.content.length

/-- A number in the report is too long: the line number of a finding in a schema log, or a number in
a block of an assertion report. -/
def ValidatorReport.LongNumber (report : ValidatorReport) : Prop :=
  match report.kind with
  | .svrl => ∃ b ∈ blocks report.content, b.2.LongNumber
  | .xmllint => ∃ ds ∈ logRows report.content, TooLong.limit < ds.length

namespace Tracer

variable {t : Tracer}

/-! ## One report -/

/-- The issues of a report are read unless it is too large or a number in it is too long, whatever
the clean output is. -/
theorem hasResult_reportIssues {docLines : List String} {report : ValidatorReport} :
    HasResult (t.reportIssues docLines report) ↔ ¬ t.Oversized report ∧ ¬ report.LongNumber := by
  unfold reportIssues Oversized ValidatorReport.LongNumber
  cases report.kind with
  | xmllint =>
    simp [hasResult_logIssues]
  | svrl =>
    rw [hasResult_bind]
    simp only [true_and, Int.not_lt, hasResult_mapError, hasResult_issuesOf]
    constructor
    · rintro ⟨vs, hvs, hpaths⟩
      obtain ⟨hsize, htexts⟩ := hasResult_violations.mp ⟨vs, hvs⟩
      refine ⟨hsize, ?_⟩
      rintro ⟨b, hb, htext | ⟨v, hv, hpath⟩⟩
      · exact htexts b hb htext
      · exact hpaths v ((mem_violations hvs).mpr ⟨b, hb, hv⟩) hpath
    · rintro ⟨hsize, hshort⟩
      obtain ⟨vs, hvs⟩ := hasResult_violations.mpr
        ⟨hsize, fun b hb htext => hshort ⟨b, hb, Or.inl htext⟩⟩
      refine ⟨vs, hvs, fun v hv hpath => ?_⟩
      obtain ⟨b, hb, hstates⟩ := (mem_violations hvs).mp hv
      exact hshort ⟨b, hb, Or.inr ⟨v, hstates, hpath⟩⟩

/-- A report is refused for its size when it is too large. -/
theorem reportIssues_eq_tooLarge {docLines : List String} {report : ValidatorReport} {size : Nat}
    {limit : Int} :
    t.reportIssues docLines report = .error (.tooLarge size limit) ↔
      t.Oversized report ∧ size = report.content.length ∧ limit = t.reportLimit := by
  unfold reportIssues Oversized
  cases report.kind with
  | xmllint => exact iff_of_false mapError_number_ne_tooLarge fun h => absurd h.1.1 (by decide)
  | svrl =>
    -- Whatever is refused behind the check of the size is refused for a number.
    rw [bind_eq_error, violations_eq_tooLarge, and_iff_right rfl]
    refine or_iff_left ?_
    rintro ⟨vs, -, hissues⟩
    exact mapError_number_ne_tooLarge hissues

/-- A report is refused for a number when one in it is too long and it is not too large. -/
theorem exists_reportIssues_eq_number {docLines : List String} {report : ValidatorReport} :
    (∃ e, t.reportIssues docLines report = .error (.number e)) ↔
      ¬ t.Oversized report ∧ report.LongNumber := by
  have hresult := @hasResult_reportIssues t docLines report
  have hlarge := @reportIssues_eq_tooLarge t docLines report
  cases hissues : t.reportIssues docLines report with
  | ok issues =>
    obtain ⟨-, hshort⟩ := hresult.mp ⟨issues, hissues⟩
    exact iff_of_false (by simp) fun h => hshort h.2
  | error e =>
    cases e with
    | tooLarge size limit => exact iff_of_false (by simp) fun h => h.1 (hlarge.mp hissues).1
    | number e =>
      have hsize : ¬ t.Oversized report := fun h => by
        rw [hlarge.mpr ⟨h, rfl, rfl⟩] at hissues
        exact absurd hissues (by simp)
      refine iff_of_true ⟨e, rfl⟩ ⟨hsize, ?_⟩
      by_contra hshort
      obtain ⟨issues, hok⟩ := hresult.mpr ⟨hsize, hshort⟩
      exact absurd (hok.symm.trans hissues) (by simp)

/-! ## All reports -/

/-- The first report that can not be read is too large. -/
def FirstOversized (t : Tracer) (reports : List ValidatorReport) : Prop :=
  ∃ pre report post, reports = pre ++ report :: post ∧
    (∀ other ∈ pre, ¬ t.Oversized other ∧ ¬ other.LongNumber) ∧ t.Oversized report

/-- The first report that can not be read is not too large, but has a number that is too long. -/
def FirstLongNumber (t : Tracer) (reports : List ValidatorReport) : Prop :=
  ∃ pre report post, reports = pre ++ report :: post ∧
    (∀ other ∈ pre, ¬ t.Oversized other ∧ ¬ other.LongNumber) ∧
      ¬ t.Oversized report ∧ report.LongNumber

/-- A run has a result when its raw output is split and each of its reports is read. -/
theorem hasResult_run {raw : String} {reports : List ValidatorReport} {program : Option String} :
    HasResult (t.run raw reports program) ↔
      (∀ ds ∈ Output.markerRows t.sentinel raw, ds.length ≤ TooLong.limit) ∧
        ∀ report ∈ reports, ¬ t.Oversized report ∧ ¬ report.LongNumber := by
  unfold run
  -- Whether a report is read does not depend on the clean output, so that the two come apart.
  rw [hasResult_bind]
  simp only [hasResult_bind_pure, hasResult_mapM, hasResult_map, hasResult_reportIssues,
    exists_and_right]
  change HasResult _ ∧ _ ↔ _
  rw [hasResult_mapError, Output.hasResult_split]

/-- A run is refused for the size of the first report that is refused. -/
theorem run_eq_tooLarge {raw : String} {reports : List ValidatorReport} {program : Option String}
    {size : Nat} {limit : Int} :
    t.run raw reports program = .error (.tooLarge size limit) ↔
      (∀ ds ∈ Output.markerRows t.sentinel raw, ds.length ≤ TooLong.limit) ∧
        ∃ pre report post, reports = pre ++ report :: post ∧
          (∀ other ∈ pre, ¬ t.Oversized other ∧ ¬ other.LongNumber) ∧ t.Oversized report ∧
          size = report.content.length ∧ limit = t.reportLimit := by
  unfold run
  rw [bind_eq_error, ← Output.hasResult_split]
  constructor
  · rintro (hsplit | ⟨output, hsplit, hreports⟩)
    · exact absurd hsplit mapError_number_ne_tooLarge
    · refine ⟨⟨output, mapError_eq_ok.mp hsplit⟩, ?_⟩
      -- With the issues of all reports the run has its result.
      rcases bind_eq_error.mp hreports with hmapM | ⟨found, -, hresult⟩
      · obtain ⟨pre, report, post, hreports, hpre, hreport⟩ := mapM_eq_error.mp hmapM
        refine ⟨pre, report, post, hreports, fun other hother => ?_, ?_⟩
        · exact hasResult_reportIssues.mp (hasResult_map.mp (hpre other hother))
        · exact reportIssues_eq_tooLarge.mp (map_eq_error.mp hreport)
      · exact absurd hresult (by simp [pure, Except.pure])
  · rintro ⟨⟨output, hsplit⟩, pre, report, post, hreports, hpre, hreport⟩
    refine Or.inr ⟨output, mapError_eq_ok.mpr hsplit, bind_eq_error.mpr (Or.inl ?_)⟩
    refine mapM_eq_error.mpr ⟨pre, report, post, hreports, fun other hother => ?_, ?_⟩
    · exact hasResult_map.mpr (hasResult_reportIssues.mpr (hpre other hother))
    · exact map_eq_error.mpr (reportIssues_eq_tooLarge.mpr hreport)

/-- A run is refused for a number when one in the raw output is too long, or one in the first report
that is refused. -/
theorem exists_run_eq_number {raw : String} {reports : List ValidatorReport}
    {program : Option String} :
    (∃ e, t.run raw reports program = .error (.number e)) ↔
      (∃ ds ∈ Output.markerRows t.sentinel raw, TooLong.limit < ds.length) ∨
        t.FirstLongNumber reports := by
  have hmarkers : (∃ e, Output.split t.sentinel raw = .error e) ↔
      ∃ ds ∈ Output.markerRows t.sentinel raw, TooLong.limit < ds.length := by
    rw [← not_hasResult, Output.hasResult_split]
    push Not
    rfl
  rw [← hmarkers]
  unfold run
  constructor
  · rintro ⟨e, h⟩
    rcases bind_eq_error.mp h with hsplit | ⟨output, -, hreports⟩
    · obtain ⟨e', he', -⟩ := mapError_eq_error.mp hsplit
      exact Or.inl ⟨e', he'⟩
    · rcases bind_eq_error.mp hreports with hmapM | ⟨found, -, hresult⟩
      · obtain ⟨pre, report, post, hreports, hpre, hreport⟩ := mapM_eq_error.mp hmapM
        refine Or.inr ⟨pre, report, post, hreports, fun other hother => ?_, ?_⟩
        · exact hasResult_reportIssues.mp (hasResult_map.mp (hpre other hother))
        · exact exists_reportIssues_eq_number.mp ⟨e, map_eq_error.mp hreport⟩
      · exact absurd hresult (by simp [pure, Except.pure])
  · intro h
    -- Where the raw output is split, the reports are read in order.
    cases hsplit : Output.split t.sentinel raw with
    | error e => exact ⟨e, rfl⟩
    | ok output =>
      obtain ⟨pre, report, post, hreports, hpre, hreport⟩ :=
        h.resolve_left fun ⟨e, he⟩ => absurd (he.symm.trans hsplit) (by simp)
      obtain ⟨e, he⟩ := exists_reportIssues_eq_number.mpr hreport
      refine ⟨e, bind_eq_error.mpr (Or.inr ⟨output, rfl, bind_eq_error.mpr (Or.inl ?_)⟩)⟩
      refine mapM_eq_error.mpr ⟨pre, report, post, hreports, fun other hother => ?_, ?_⟩
      · exact hasResult_map.mpr (hasResult_reportIssues.mpr (hpre other hother))
      · exact map_eq_error.mpr he

/-- A run is refused for a size when that of the first report that is refused is too large, and no
number in the raw output is too long. -/
theorem exists_run_eq_tooLarge {raw : String} {reports : List ValidatorReport}
    {program : Option String} :
    (∃ size limit, t.run raw reports program = .error (.tooLarge size limit)) ↔
      (∀ ds ∈ Output.markerRows t.sentinel raw, ds.length ≤ TooLong.limit) ∧
        t.FirstOversized reports := by
  simp only [run_eq_tooLarge, FirstOversized]
  constructor
  · rintro ⟨-, -, hmarkers, pre, report, post, hreports, hpre, hlarge, -⟩
    exact ⟨hmarkers, pre, report, post, hreports, hpre, hlarge⟩
  · rintro ⟨hmarkers, pre, report, post, hreports, hpre, hlarge⟩
    exact ⟨_, _, hmarkers, pre, report, post, hreports, hpre, hlarge, rfl, rfl⟩

/-- A run is refused exactly when the raw output or one of the reports is: for a number that is too
long, or an assertion report for its size. It is refused for the size of a report exactly when
nothing before that report, neither a number in the raw output nor another report, is refused. -/
theorem run_refused_iff (t : Tracer) (raw : String) (reports : List ValidatorReport)
    (program : Option String) :
    ((∃ e, t.run raw reports program = .error e) ↔
        (∃ report ∈ reports, t.Oversized report) ∨
          (∃ ds ∈ Output.markerRows t.sentinel raw, TooLong.limit < ds.length) ∨
          ∃ report ∈ reports, report.LongNumber) ∧
      ∀ size limit, t.run raw reports program = .error (.tooLarge size limit) ↔
        (∀ ds ∈ Output.markerRows t.sentinel raw, ds.length ≤ TooLong.limit) ∧
          ∃ pre report post, reports = pre ++ report :: post ∧
            (∀ other ∈ pre, ¬ t.Oversized other ∧ ¬ other.LongNumber) ∧ t.Oversized report ∧
            size = report.content.length ∧ limit = t.reportLimit := by
  refine ⟨?_, fun size limit => run_eq_tooLarge⟩
  rw [← not_hasResult, hasResult_run]
  constructor
  · intro hrefused
    by_contra hnone
    push Not at hnone
    obtain ⟨hsizes, hmarkers, hnumbers⟩ := hnone
    have hread : ∀ report ∈ reports, ¬ t.Oversized report ∧ ¬ report.LongNumber :=
      fun report hreport => ⟨hsizes report hreport, hnumbers report hreport⟩
    exact hrefused ⟨hmarkers, hread⟩
  · rintro hcause ⟨hmarkers, hread⟩
    rcases hcause with ⟨report, hreport, hlarge⟩ | ⟨ds, hds, hlong⟩ | ⟨report, hreport, hlong⟩
    · exact (hread report hreport).1 hlarge
    · exact absurd (hmarkers ds hds) (Nat.not_le.mpr hlong)
    · exact (hread report hreport).2 hlong

/-- A row of digits that is too long, although it writes the number 1. -/
def longRow : List Char := List.replicate TooLong.limit '0' ++ ['1']

/-- A raw output with the marker of line 1, whose number is written with the long row of digits. -/
def longMarker : List Char :=
  Output.markerStart Marker.defaultSentinel.toList ++
    ("f.xsl".toList ++ '|' :: (longRow ++ '|' :: ("a".toList ++ Output.commentEnd)))

/-- The row of digits is that of a marker. -/
theorem longRow_mem_markerRows :
    longRow ∈ Output.markerRows Marker.defaultSentinel (String.ofList longMarker) := by
  have hrow : ∀ c ∈ longRow, isDigit c = true := by
    intro c hc
    rcases List.mem_append.mp hc with hzero | hone
    · rw [List.eq_of_mem_replicate hzero]
      decide
    · rw [List.mem_singleton.mp hone]
      decide
  have hmarker := @Output.marker?_row Marker.defaultSentinel.toList "f.xsl".toList longRow "a".toList
    (by decide) hrow (List.append_ne_nil_of_right_ne_nil _ (List.cons_ne_nil _ _))
    (occurs_eq_false.mp (by decide)) []
  rw [List.append_nil] at hmarker
  have hfeed : '\n' ∉ longMarker := by
    have hdigits : '\n' ∉ longRow := fun h => absurd (hrow _ h) (by decide)
    simp [longMarker, Output.markerStart, Output.commentEnd, Marker.defaultSentinel, hdigits]
  rw [Output.markerRows, String.toList_ofList, lines_of_not_mem hfeed, List.flatMap_singleton,
    longMarker, collect_of_some Output.reduces_marker hmarker]
  exact List.mem_cons_self

/-- A run without any reports is refused for the leading zeros in a marker. -/
theorem run_refused_iff_longMarker :
    ∃ e, (⟨Marker.defaultSentinel, Report.defaultLimit, .default⟩ : Tracer).run
      (String.ofList longMarker) [] none = .error e := by
  have hlong : TooLong.limit < longRow.length := by
    rw [longRow, List.length_append, List.length_replicate]
    exact Nat.lt_succ_self _
  exact (run_refused_iff _ _ _ _).1.mpr (Or.inr (Or.inl ⟨longRow, longRow_mem_markerRows, hlong⟩))

end Tracer

end StylesheetTrace
