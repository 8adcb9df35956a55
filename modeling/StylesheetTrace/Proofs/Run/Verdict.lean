import StylesheetTrace.Proofs.Run.Result

/-!
# The verdicts of a run

A validator fails when one of the reports that are handed in under its name states an error
(`lookup_of_run`). The issues of a schema log, though, are all errors of the schema, whatever
name the log is handed in under. So a log with findings that is handed in under another name counts
against that name, and its issues against none. `run_verdicts` says what the verdicts are, and
exactly when they are those that the sources of the issues give.
-/

namespace StylesheetTrace

open StylesheetTrace.Report

/-! ## One more report -/

namespace Verdicts

/-- The validators with a verdict. -/
def keys (v : Verdicts) : List Source :=
  v.map Prod.fst

/-- The validator is not known to have failed. -/
def passes (v : Verdicts) (s : Source) : Bool :=
  (v.lookup s).getD true

/-- Without a verdict on the validator there is none to look up. -/
theorem lookup_of_not_mem_keys {v : Verdicts} {s : Source} (h : s ∉ v.keys) :
    v.lookup s = none := by
  refine List.lookup_eq_none_iff.mpr fun p hp => ?_
  have hne : s ≠ p.1 := fun hs => h (hs ▸ List.mem_map_of_mem hp)
  exact bne_iff_ne.mpr hne

/-- A validator with a verdict has one that can be looked up. -/
theorem exists_lookup_of_mem_keys {v : Verdicts} {s : Source} (h : s ∈ v.keys) :
    ∃ b, v.lookup s = some b := by
  obtain ⟨p, hp, rfl⟩ := List.mem_map.mp h
  exact Option.isSome_iff_exists.mp (List.lookup_isSome_iff.mpr ⟨p, hp, beq_self_eq_true p.1⟩)

/-- A further report is added to the verdict that its validator has, or is its first one. -/
theorem record_eq (v : Verdicts) (source : Source) (passed : Bool) :
    v.record source passed =
      if source ∈ v.keys then v.map fun p => (p.1, p.2 && (p.1 != source || passed))
      else v ++ [(source, passed)] := by
  have hany : (v.any fun p => p.1 == source) = true ↔ source ∈ v.keys := by
    rw [List.any_eq_true, keys, List.mem_map]
    exact exists_congr fun p => and_congr_right fun _ => beq_iff_eq
  have hmap : (fun p : Source × Bool => if p.1 == source then (p.1, p.2 && passed) else p) =
      fun p => (p.1, p.2 && (p.1 != source || passed)) := by
    funext p
    by_cases h : p.1 = source
    · simp [h]
    · rw [if_neg (by simpa using h), bne_iff_ne.mpr h, Bool.true_or, Bool.and_true]
  unfold record
  rw [hmap]
  exact if_congr hany rfl rfl

/-- Changed verdicts are on the same validators. -/
theorem keys_change (f : Source → Bool → Bool) (v : Verdicts) :
    keys (v.map fun p => (p.1, f p.1 p.2)) = v.keys :=
  List.map_map

/-- A changed verdict is that before, changed. -/
theorem lookup_change (f : Source → Bool → Bool) (v : Verdicts) (s : Source) :
    (v.map fun p => (p.1, f p.1 p.2)).lookup s = (v.lookup s).map (f s) := by
  induction v with
  | nil => rfl
  | cons p v ih =>
    rw [List.map_cons, List.lookup_cons, List.lookup_cons]
    by_cases hs : s = p.1
    · rw [beq_iff_eq.mpr hs, hs]
      rfl
    · rw [beq_eq_false_iff_ne.mpr hs]
      exact ih

/-- A report counts for the validator under whose name it is handed in, and for no other. -/
theorem passes_record (v : Verdicts) (source s : Source) (passed : Bool) :
    (v.record source passed).passes s = (v.passes s && (s != source || passed)) := by
  unfold passes
  rw [record_eq]
  split
  · rename_i hmem
    rw [lookup_change fun k b => b && (k != source || passed)]
    cases hlookup : v.lookup s with
    | some b => rfl
    | none =>
      -- The validator of the report has a verdict already, so that it is another one.
      have hne : s ≠ source := by
        rintro rfl
        obtain ⟨b, hb⟩ := exists_lookup_of_mem_keys hmem
        exact absurd (hlookup.symm.trans hb) (by simp)
      simp [hne]
  · rename_i hmem
    rw [List.lookup_append]
    by_cases hs : s = source
    · subst hs
      rw [lookup_of_not_mem_keys hmem]
      simp
    · have hone : [(source, passed)].lookup s = none :=
        lookup_of_not_mem_keys (by simpa [keys] using hs)
      rw [hone]
      simp [hs]

/-- A report gives its validator a verdict. -/
theorem mem_keys_record {v : Verdicts} {source s : Source} {passed : Bool} :
    s ∈ (v.record source passed).keys ↔ s ∈ v.keys ∨ s = source := by
  rw [record_eq]
  split
  · rename_i hmem
    rw [keys_change fun k b => b && (k != source || passed)]
    exact ⟨Or.inl, fun h => h.elim id fun hs => hs ▸ hmem⟩
  · rw [keys, List.map_append, List.mem_append, List.map_singleton, List.mem_singleton, keys]

/-- A report leaves at most one verdict on each validator. -/
theorem nodup_keys_record {v : Verdicts} (h : v.keys.Nodup) (source : Source) (passed : Bool) :
    (v.record source passed).keys.Nodup := by
  rw [record_eq]
  split
  · rw [keys_change fun k b => b && (k != source || passed)]
    exact h
  · rename_i hmem
    rw [keys, List.map_append]
    refine List.nodup_append.mpr ⟨h, by simp, fun a ha b hb => ?_⟩
    obtain rfl := List.mem_singleton.mp hb
    exact fun heq => hmem (heq ▸ ha)

/-- All validators pass with a further report when they did before and it states no error. -/
theorem all_record (v : Verdicts) (source : Source) (passed : Bool) :
    (∀ p ∈ v.record source passed, p.2 = true) ↔ (∀ p ∈ v, p.2 = true) ∧ passed = true := by
  rw [record_eq]
  split
  · rename_i hmem
    obtain ⟨q, hq, hsource⟩ := List.mem_map.mp hmem
    rw [List.forall_mem_map]
    simp only [Bool.and_eq_true]
    constructor
    · intro hall
      have hpassed := (hall q hq).2
      rw [hsource, bne_self_eq_false, Bool.false_or] at hpassed
      exact ⟨fun p hp => (hall p hp).1, hpassed⟩
    · rintro ⟨hall, rfl⟩ p hp
      exact ⟨hall p hp, Bool.or_true _⟩
  · rw [List.forall_mem_append, List.forall_mem_singleton]

/-! ## All reports -/

/-- The verdicts after further reports, each given with its issues. -/
def recordAll (v : Verdicts) (found : List (ValidatorReport × List Issue)) : Verdicts :=
  found.foldl (fun v (r, issues) => v.record r.source (!issues.any Issue.isError)) v

/-- A validator passes when it did so before and none of the further reports that are handed in
under its name states an error. -/
theorem passes_recordAll (v : Verdicts) (found : List (ValidatorReport × List Issue))
    (s : Source) :
    (v.recordAll found).passes s =
      (v.passes s && found.all fun f => s != f.1.source || !f.2.any Issue.isError) := by
  induction found generalizing v with
  | nil => exact (Bool.and_true _).symm
  | cons f found ih =>
    rw [recordAll, List.foldl_cons, ← recordAll, ih, passes_record, List.all_cons, Bool.and_assoc]

/-- All validators pass when they did before and none of the further reports states an error. -/
theorem all_recordAll (v : Verdicts) (found : List (ValidatorReport × List Issue)) :
    (∀ p ∈ v.recordAll found, p.2 = true) ↔
      (∀ p ∈ v, p.2 = true) ∧ ∀ f ∈ found, f.2.any Issue.isError = false := by
  induction found generalizing v with
  | nil => exact (and_iff_left (List.forall_mem_nil _)).symm
  | cons f found ih =>
    rw [recordAll, List.foldl_cons, ← recordAll, ih, all_record, List.forall_mem_cons, and_assoc,
      Bool.not_eq_true']

/-- The validators with a verdict are those that had one and those of the further reports. -/
theorem mem_keys_recordAll {v : Verdicts} {found : List (ValidatorReport × List Issue)}
    {s : Source} :
    s ∈ (v.recordAll found).keys ↔ s ∈ v.keys ∨ ∃ f ∈ found, f.1.source = s := by
  induction found generalizing v with
  | nil => exact ⟨Or.inl, fun h => h.elim id fun h => absurd h (by simp)⟩
  | cons f found ih =>
    rw [recordAll, List.foldl_cons, ← recordAll, ih, mem_keys_record, or_assoc,
      List.exists_mem_cons_iff, eq_comm]

/-- At most one verdict is left on each validator. -/
theorem nodup_keys_recordAll {v : Verdicts} (h : v.keys.Nodup)
    (found : List (ValidatorReport × List Issue)) : (v.recordAll found).keys.Nodup := by
  induction found generalizing v with
  | nil => exact h
  | cons f found ih => exact ih (nodup_keys_record h f.1.source _)

end Verdicts

/-! ## Reports with errors -/

/-- The validator that the issues of a report are attributed to. -/
def ValidatorReport.stamp (report : ValidatorReport) : Source :=
  match report.kind with
  | .svrl => report.source
  | .xmllint => .xsd

variable {t : Tracer} {raw : String} {reports : List ValidatorReport} {program : Option String}
  {r : RunResult}

/-- The report states an error on a clean output of the given lines. -/
def Tracer.StatesError (t : Tracer) (docLines : List String) (report : ValidatorReport) : Prop :=
  ∃ i, t.States docLines report i ∧ i.isError = true

/-- A report that is read states an error when one of its issues is an error. -/
theorem Tracer.statesError_iff {docLines : List String} {report : ValidatorReport}
    {issues : List Issue} (h : t.reportIssues docLines report = .ok issues) :
    t.StatesError docLines report ↔ issues.any Issue.isError = true := by
  rw [List.any_eq_true]
  constructor
  · rintro ⟨i, ⟨read, hread, hi⟩, herror⟩
    obtain rfl := Except.ok.inj (hread.symm.trans h)
    exact ⟨i, hi, herror⟩
  · rintro ⟨i, hi, herror⟩
    exact ⟨i, ⟨issues, h, hi⟩, herror⟩

/-- The issues of a report bear its stamp. -/
theorem Tracer.States.source_eq {docLines : List String} {report : ValidatorReport} {i : Issue}
    (h : t.States docLines report i) : i.source = report.stamp := by
  unfold ValidatorReport.stamp
  cases hkind : report.kind with
  | svrl => exact (h.of_svrl hkind).1
  | xmllint => exact (h.of_xmllint hkind).1

/-- The errors of a run that bear a source are those of the reports with that stamp. -/
theorem exists_error_iff (h : t.run raw reports program = .ok r) {s : Source} :
    (∃ i ∈ r.issues, i.source = s ∧ i.isError = true) ↔
      ∃ report ∈ reports, report.stamp = s ∧ t.StatesError r.output.lines report := by
  constructor
  · rintro ⟨i, hi, hs, herror⟩
    obtain ⟨report, hreport, hstates⟩ := (Tracer.mem_issues h).mp hi
    exact ⟨report, hreport, hstates.source_eq ▸ hs, i, hstates, herror⟩
  · rintro ⟨report, hreport, hs, i, hstates, herror⟩
    exact ⟨i, (Tracer.mem_issues h).mpr ⟨report, hreport, hstates⟩,
      hstates.source_eq.trans hs, herror⟩

/-! ## The verdicts of a run -/

/-- There is a verdict on each validator under whose name a report is handed in, and only one. -/
theorem keys_of_run (h : t.run raw reports program = .ok r) :
    r.verdicts.keys.Nodup ∧
      ∀ s, s ∈ r.verdicts.keys ↔ ∃ report ∈ reports, report.source = s := by
  obtain ⟨output, found, -, rfl, -, rfl⟩ := Tracer.run_eq_ok_iff.mp h
  refine ⟨Verdicts.nodup_keys_recordAll (v := []) List.nodup_nil found, fun s => ?_⟩
  refine (Verdicts.mem_keys_recordAll (v := [])).trans ?_
  constructor
  · rintro (hs | ⟨f, hf, hs⟩)
    · exact absurd hs List.not_mem_nil
    · exact ⟨f.1, List.mem_map_of_mem hf, hs⟩
  · rintro ⟨report, hreport, hs⟩
    obtain ⟨f, hf, rfl⟩ := List.mem_map.mp hreport
    exact Or.inr ⟨f, hf, hs⟩

/-- A validator fails when a report that is handed in under its name states an error. -/
theorem lookup_of_run (h : t.run raw reports program = .ok r) {s : Source} {passed : Bool}
    (hlookup : r.verdicts.lookup s = some passed) :
    passed = false ↔
      ∃ report ∈ reports, report.source = s ∧ t.StatesError r.output.lines report := by
  obtain ⟨output, found, -, rfl, hread, rfl⟩ := Tracer.run_eq_ok_iff.mp h
  have hpassed : Verdicts.passes (Verdicts.recordAll [] found) s = passed :=
    congrArg (Option.getD · true) hlookup
  have hall : passed =
      found.all fun f => s != f.1.source || !f.2.any Issue.isError := by
    rw [← hpassed, Verdicts.passes_recordAll]
    rfl
  rw [hall, List.all_eq_false]
  constructor
  · rintro ⟨f, hf, hfails⟩
    obtain ⟨hs, herror⟩ : s = f.1.source ∧ f.2.any Issue.isError = true := by
      simpa using hfails
    exact ⟨f.1, List.mem_map_of_mem hf, hs.symm, (Tracer.statesError_iff (hread f hf)).mpr herror⟩
  · rintro ⟨report, hreport, hs, herror⟩
    obtain ⟨f, hf, rfl⟩ := List.mem_map.mp hreport
    have hany := (Tracer.statesError_iff (hread f hf)).mp herror
    exact ⟨f, hf, by rw [← hs, hany]; simp⟩

/-- All validators pass when the run has no error, in however many reports and whatever order. -/
theorem all_passed_iff (h : t.run raw reports program = .ok r) :
    (∀ p ∈ r.verdicts, p.2 = true) ↔ r.errorCount = 0 := by
  obtain ⟨output, found, -, -, -, rfl⟩ := Tracer.run_eq_ok_iff.mp h
  have hverdicts : (∀ p ∈ Verdicts.recordAll [] found, p.2 = true) ↔
      ∀ f ∈ found, f.2.any Issue.isError = false :=
    (Verdicts.all_recordAll [] found).trans (and_iff_right (List.forall_mem_nil _))
  have hcount : (found.flatMap fun f => f.2).countP Issue.isError = 0 ↔
      ∀ f ∈ found, f.2.any Issue.isError = false := by
    rw [List.countP_eq_zero, List.forall_mem_flatMap]
    refine forall₂_congr fun f _ => ?_
    rw [List.any_eq_false]
  exact hverdicts.trans hcount.symm

/-- The verdicts are those that the sources of the issues give: a validator passes when no issue of
that source is an error, and there is a verdict on the source of each error. -/
def RunResult.VerdictsMatch (r : RunResult) : Prop :=
  (∀ s passed, r.verdicts.lookup s = some passed →
      (passed = true ↔ ¬ ∃ i ∈ r.issues, i.source = s ∧ i.isError = true)) ∧
    ∀ i ∈ r.issues, i.isError = true → i.source ∈ r.verdicts.keys

/-- The verdicts match the issues when the reports with errors, taken all together, are handed in
under the names that their issues bear. -/
theorem verdictsMatch_iff (h : t.run raw reports program = .ok r) :
    r.VerdictsMatch ↔ ∀ s,
      (∃ report ∈ reports, report.source = s ∧ t.StatesError r.output.lines report) ↔
        ∃ report ∈ reports, report.stamp = s ∧ t.StatesError r.output.lines report := by
  obtain ⟨-, hkeys⟩ := keys_of_run h
  unfold RunResult.VerdictsMatch
  constructor
  · rintro ⟨hmatch, hcovered⟩ s
    rw [← exists_error_iff h]
    constructor
    · rintro ⟨report, hreport, hs, herror⟩
      obtain ⟨passed, hlookup⟩ :=
        Verdicts.exists_lookup_of_mem_keys ((hkeys s).mpr ⟨report, hreport, hs⟩)
      have hfails := (lookup_of_run h hlookup).mpr ⟨report, hreport, hs, herror⟩
      by_contra hnone
      exact absurd (hfails.symm.trans ((hmatch s passed hlookup).mpr hnone)) (by decide)
    · rintro ⟨i, hi, rfl, herror⟩
      obtain ⟨passed, hlookup⟩ := Verdicts.exists_lookup_of_mem_keys (hcovered i hi herror)
      refine (lookup_of_run h hlookup).mp (Bool.eq_false_iff.mpr fun hpassed => ?_)
      exact (hmatch i.source passed hlookup).mp hpassed ⟨i, hi, rfl, herror⟩
  · intro hsame
    refine ⟨fun s passed hlookup => ?_, fun i hi herror => ?_⟩
    · rw [exists_error_iff h, ← hsame s, ← lookup_of_run h hlookup, Bool.not_eq_false]
    · obtain ⟨report, hreport, hs, -⟩ :=
        (hsame i.source).mpr ((exists_error_iff h).mp ⟨i, hi, rfl, herror⟩)
      exact (hkeys i.source).mpr ⟨report, hreport, hs⟩

/-- There is one verdict on each validator under whose name a report is handed in, and it is that
the validator fails when one of these reports states an error. The verdicts are those that the
sources of the issues give exactly when each schema log with findings that is handed in under
another name goes with an assertion report under that name that states an error, and with a report
on the schema that does. -/
theorem run_verdicts (h : t.run raw reports program = .ok r) :
    r.verdicts.keys.Nodup ∧
      (∀ s, s ∈ r.verdicts.keys ↔ ∃ report ∈ reports, report.source = s) ∧
      (∀ s passed, r.verdicts.lookup s = some passed →
        (passed = false ↔
          ∃ report ∈ reports, report.source = s ∧ t.StatesError r.output.lines report)) ∧
      (r.VerdictsMatch ↔
        ∀ report ∈ reports, report.kind = .xmllint → report.source ≠ .xsd →
          t.StatesError r.output.lines report →
            (∃ a ∈ reports, a.kind = .svrl ∧ a.source = report.source ∧
              t.StatesError r.output.lines a) ∧
            ∃ a ∈ reports, a.source = .xsd ∧ t.StatesError r.output.lines a) := by
  obtain ⟨hnodup, hkeys⟩ := keys_of_run h
  refine ⟨hnodup, hkeys, fun s passed => lookup_of_run h, ?_⟩
  rw [verdictsMatch_iff h]
  have hstamp : ∀ report : ValidatorReport, report.kind = .svrl → report.stamp = report.source :=
    fun report hkind => by rw [ValidatorReport.stamp, hkind]
  have hschema : ∀ report : ValidatorReport, report.kind = .xmllint → report.stamp = .xsd :=
    fun report hkind => by rw [ValidatorReport.stamp, hkind]
  constructor
  · intro hsame report hreport hkind hother herror
    constructor
    · obtain ⟨a, ha, hs, haerror⟩ := (hsame report.source).mp ⟨report, hreport, rfl, herror⟩
      cases hakind : a.kind with
      | svrl => exact ⟨a, ha, hakind, (hstamp a hakind).symm.trans hs, haerror⟩
      | xmllint => exact absurd (hs.symm.trans (hschema a hakind)) hother
    · exact (hsame .xsd).mpr ⟨report, hreport, hschema report hkind, herror⟩
  · intro hcond s
    constructor
    · rintro ⟨report, hreport, rfl, herror⟩
      cases hkind : report.kind with
      | svrl => exact ⟨report, hreport, hstamp report hkind, herror⟩
      | xmllint =>
        by_cases hxsd : report.source = .xsd
        · exact ⟨report, hreport, (hschema report hkind).trans hxsd.symm, herror⟩
        · obtain ⟨⟨a, ha, hakind, hs, haerror⟩, -⟩ := hcond report hreport hkind hxsd herror
          exact ⟨a, ha, (hstamp a hakind).trans hs, haerror⟩
    · rintro ⟨report, hreport, rfl, herror⟩
      cases hkind : report.kind with
      | svrl => exact ⟨report, hreport, (hstamp report hkind).symm, herror⟩
      | xmllint =>
        rw [hschema report hkind]
        by_cases hxsd : report.source = .xsd
        · exact ⟨report, hreport, hxsd, herror⟩
        · exact (hcond report hreport hkind hxsd herror).2

/-- A schema log with a finding, handed in under the name of another validator. -/
def misnamedLog : ValidatorReport :=
  ⟨.en16931, .xmllint, "f:1: parser error : x"⟩

/-- The log counts against the validator of that name, and its issue against none. -/
theorem run_verdicts_misnamedLog :
    ∃ r, (⟨"T", 200, RuleTable.empty⟩ : Tracer).run "<a/>" [misnamedLog] none = .ok r ∧
      r.verdicts = [(.en16931, false)] ∧
      r.issues = [⟨1, 0, "x", .error, none, .xsd⟩] ∧
      ¬ r.VerdictsMatch := by
  refine ⟨_, rfl, rfl, rfl, fun hmatch => ?_⟩
  obtain ⟨-, -, -, hiff⟩ :=
    @run_verdicts ⟨"T", 200, RuleTable.empty⟩ "<a/>" [misnamedLog] none _ rfl
  have herror : Tracer.StatesError ⟨"T", 200, RuleTable.empty⟩ ["<a/>"] misnamedLog :=
    ⟨⟨1, 0, "x", .error, none, .xsd⟩, ⟨_, rfl, List.mem_singleton_self _⟩, rfl⟩
  obtain ⟨⟨a, ha, hkind, -, -⟩, -⟩ :=
    hiff.mp hmatch misnamedLog (List.mem_singleton_self _) rfl (by decide) herror
  -- The only report is the log, which is no assertion report.
  rw [List.mem_singleton.mp ha] at hkind
  exact absurd hkind (by decide)

end StylesheetTrace
