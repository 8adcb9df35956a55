import Mathlib.Data.List.Perm.Basic
import StylesheetTrace.Proofs.Run.Verdict

/-!
# Reports taken together

A run on reports one behind the other is the runs on either taken together (`run_reports_append`):
its issues, the traced ones and the suggestions stand one behind the other, its counts are the sums,
and a validator passes when it does so in each run in which it has a verdict. For every issue is
traced and every suggestion made by itself, on an output that does not depend on the reports, and a
report counts only for its own validator. So neither the verdicts nor the counts depend on the order
in which the reports are handed in.
-/

namespace StylesheetTrace

open StylesheetTrace.Finding

/-! ## Verdicts -/

namespace Verdicts

/-- The verdict on a validator, where it has one, is whether it passes. -/
theorem lookup_eq (v : Verdicts) (s : Source) :
    v.lookup s = if s ∈ v.keys then some (v.passes s) else none := by
  split
  · rename_i hmem
    obtain ⟨b, hb⟩ := exists_lookup_of_mem_keys hmem
    rw [passes, hb]
    rfl
  · rename_i hmem
    exact lookup_of_not_mem_keys hmem

/-- Two lists of verdicts on the same validators, which pass in both or in neither, answer alike. -/
theorem lookup_congr {v w : Verdicts} {s : Source} (hkeys : s ∈ v.keys ↔ s ∈ w.keys)
    (hpasses : v.passes s = w.passes s) : v.lookup s = w.lookup s := by
  rw [lookup_eq, lookup_eq, hpasses]
  exact if_congr hkeys rfl rfl

/-- A validator without a verdict passes. -/
theorem passes_of_not_mem_keys {v : Verdicts} {s : Source} (h : s ∉ v.keys) :
    v.passes s = true := by
  rw [passes, lookup_of_not_mem_keys h]
  rfl

/-- Verdicts on the validators of two lists, which pass when they do so in both, join the two: one
without a verdict passes, so that it makes no difference to the other. -/
theorem lookup_eq_merge {u v w : Verdicts} {s : Source}
    (hkeys : s ∈ u.keys ↔ s ∈ v.keys ∨ s ∈ w.keys)
    (hpasses : u.passes s = (v.passes s && w.passes s)) :
    u.lookup s = (v.lookup s).merge (· && ·) (w.lookup s) := by
  rw [lookup_eq, lookup_eq, lookup_eq, if_congr hkeys rfl rfl, hpasses]
  by_cases hv : s ∈ v.keys
  · by_cases hw : s ∈ w.keys
    · rw [if_pos (Or.inl hv), if_pos hv, if_pos hw]
      rfl
    · rw [if_pos (Or.inl hv), if_pos hv, if_neg hw, passes_of_not_mem_keys hw, Bool.and_true]
      rfl
  · by_cases hw : s ∈ w.keys
    · rw [if_pos (Or.inr hw), if_neg hv, if_pos hw, passes_of_not_mem_keys hv, Bool.true_and]
      rfl
    · rw [if_neg (not_or.mpr ⟨hv, hw⟩), if_neg hv, if_neg hw]
      rfl

/-- The verdict on a validator after reports one behind the other joins those after either. -/
theorem lookup_recordAll_append (found more : List (ValidatorReport × List Issue)) (s : Source) :
    (recordAll [] (found ++ more)).lookup s =
      ((recordAll [] found).lookup s).merge (· && ·) ((recordAll [] more).lookup s) := by
  refine lookup_eq_merge ?_ ?_
  · have hnone : s ∉ keys [] := List.not_mem_nil
    rw [mem_keys_recordAll, mem_keys_recordAll, mem_keys_recordAll, or_iff_right hnone,
      or_iff_right hnone, or_iff_right hnone]
    simp only [List.mem_append, or_and_right, exists_or]
  · rw [passes_recordAll, passes_recordAll, passes_recordAll, List.all_append]
    rfl

/-- The verdicts do not depend on the order of the reports. -/
theorem lookup_recordAll_perm {found more : List (ValidatorReport × List Issue)}
    (h : found.Perm more) (s : Source) :
    (recordAll [] found).lookup s = (recordAll [] more).lookup s := by
  refine lookup_congr ?_ ?_
  · rw [mem_keys_recordAll, mem_keys_recordAll]
    simp only [h.mem_iff]
  · rw [passes_recordAll, passes_recordAll, h.all_eq]

end Verdicts

/-! ## Findings -/

/-- Issues one behind the other are traced one behind the other. -/
theorem traceIssues_append (table : RuleTable) (roots : List String) (entries : List TraceEntry)
    (output : Option String) (is js : List Issue) :
    traceIssues table roots entries output (is ++ js) =
      traceIssues table roots entries output is ++ traceIssues table roots entries output js := by
  unfold traceIssues
  dsimp only
  split
  · exact List.map_append
  · exact List.map_append

/-- The suggestions for issues one behind the other stand one behind the other. -/
theorem suggestionsFor_append (t : Tracer) (program : Option String) (is js : List Issue) :
    t.suggestionsFor program (is ++ js) =
      t.suggestionsFor program is ++ t.suggestionsFor program js := by
  cases program with
  | none => rfl
  | some text => exact List.filterMap_append

/-! ## Results -/

namespace RunResult

/-- The result of a run holds the findings of two others, the first of which come first. -/
structure Joins (joint first second : RunResult) : Prop where
  /-- All three have one clean output. -/
  output : joint.output = first.output ∧ joint.output = second.output
  /-- All three have one document. -/
  document : joint.document = first.document ∧ joint.document = second.document
  /-- The issues of the first come before those of the second. -/
  issues : joint.issues = first.issues ++ second.issues
  /-- The traced issues of the first come before those of the second. -/
  traced : joint.traced = first.traced ++ second.traced
  /-- The suggestions of the first come before those of the second. -/
  suggestions : joint.suggestions = first.suggestions ++ second.suggestions
  /-- A validator is passed when it is in both, or in the one that has a verdict of it. -/
  verdicts : ∀ s, joint.verdicts.lookup s =
    (first.verdicts.lookup s).merge (· && ·) (second.verdicts.lookup s)
  /-- The errors of both are counted. -/
  errors : joint.errorCount = first.errorCount + second.errorCount
  /-- The warnings of both are counted. -/
  warnings : joint.warningCount = first.warningCount + second.warningCount

/-- Two results say the same in sum. -/
structure CountsAlike (first second : RunResult) : Prop where
  /-- They state the same verdicts. -/
  verdicts : ∀ s, first.verdicts.lookup s = second.verdicts.lookup s
  /-- They have as many errors. -/
  errors : first.errorCount = second.errorCount
  /-- They have as many warnings. -/
  warnings : first.warningCount = second.warningCount

end RunResult

namespace Tracer

/-- The result on reports one behind the other joins those on either. -/
theorem joins_resultOf (t : Tracer) (output : Output.Split)
    (found more : List (ValidatorReport × List Issue)) (program : Option String) :
    (t.resultOf output (found ++ more) program).Joins (t.resultOf output found program)
      (t.resultOf output more program) := by
  have hissues : (t.resultOf output (found ++ more) program).issues =
      (t.resultOf output found program).issues ++ (t.resultOf output more program).issues :=
    List.flatMap_append
  have hcount : ∀ severity, (t.resultOf output (found ++ more) program).countOf severity =
      (t.resultOf output found program).countOf severity +
        (t.resultOf output more program).countOf severity := fun severity => by
    unfold RunResult.countOf
    rw [hissues, List.countP_append]
  exact
    { output := ⟨rfl, rfl⟩
      document := ⟨rfl, rfl⟩
      issues := hissues
      traced := (congrArg (traceIssues _ _ _ _) hissues).trans (traceIssues_append _ _ _ _ _ _)
      suggestions := (congrArg (t.suggestionsFor program) hissues).trans
        (suggestionsFor_append t program _ _)
      verdicts := Verdicts.lookup_recordAll_append found more
      errors := hcount .error
      warnings := hcount .warning }

/-- The results on the same reports in another order count alike. -/
theorem countsAlike_resultOf (t : Tracer) (output : Output.Split)
    {found more : List (ValidatorReport × List Issue)} (h : found.Perm more)
    (program : Option String) :
    (t.resultOf output found program).CountsAlike (t.resultOf output more program) where
  verdicts := Verdicts.lookup_recordAll_perm h
  errors := (h.flatMap_right Prod.snd).countP_eq _
  warnings := (h.flatMap_right Prod.snd).countP_eq _

/-- Where the runs on two lists of reports have results, the run on both lists, one behind the
other, has one that joins them. Where a run has a result, the runs on the same reports in any order
have results, with the same verdicts and counts. -/
theorem run_reports_append (t : Tracer) (raw : String) (program : Option String) :
    (∀ reports more first second, t.run raw reports program = .ok first →
        t.run raw more program = .ok second →
        ∃ joint, t.run raw (reports ++ more) program = .ok joint ∧ joint.Joins first second) ∧
      ∀ reports shuffled first, reports.Perm shuffled → t.run raw reports program = .ok first →
        ∃ second, t.run raw shuffled program = .ok second ∧ first.CountsAlike second := by
  constructor
  · intro reports more first second hfirst hsecond
    obtain ⟨output, found, hsplit, rfl, hread, rfl⟩ := run_eq_ok_iff.mp hfirst
    obtain ⟨output', found', hsplit', rfl, hread', rfl⟩ := run_eq_ok_iff.mp hsecond
    -- The output of both runs is split in the same way.
    obtain rfl : output = output' := Except.ok.inj (hsplit.symm.trans hsplit')
    refine ⟨_, run_eq_ok_iff.mpr ⟨output, found ++ found', hsplit, List.map_append, ?_, rfl⟩,
      joins_resultOf t output found found' program⟩
    exact List.forall_mem_append.mpr ⟨hread, hread'⟩
  · intro reports shuffled first hperm hfirst
    obtain ⟨output, found, hsplit, rfl, hread, rfl⟩ := run_eq_ok_iff.mp hfirst
    -- The issues go with their reports into the other order.
    obtain ⟨found', rfl, hfound⟩ : ∃ found' : List (ValidatorReport × List Issue),
        shuffled = found'.map Prod.fst ∧ found'.Perm found :=
      (congrFun₂ (List.eq_map_comp_perm Prod.fst) shuffled found).mpr hperm.symm
    refine ⟨_, run_eq_ok_iff.mpr ⟨output, found', hsplit, rfl, fun f hf => ?_, rfl⟩,
      countsAlike_resultOf t output hfound.symm program⟩
    exact hread f (hfound.subset hf)

/-- An assertion report with a warning. -/
def warningReport : ValidatorReport :=
  ⟨.peppol, .svrl, "<failed-assert flag=\"warning\"><text>w</text></failed-assert>"⟩

/-- A further report of the same validator, with an error, and a schema log. -/
def errorReports : List ValidatorReport :=
  [⟨.peppol, .svrl, "<failed-assert><text>e</text></failed-assert>"⟩,
    ⟨.xsd, .xmllint, "o:1: parser error : x"⟩]

/-- The validator of the warning passes by itself and fails by the further report; in the other
order the verdicts and the counts are the same. -/
theorem run_reports_append_warning :
    ∃ first joint shuffled,
      (⟨"T", 200, RuleTable.empty⟩ : Tracer).run "<a/>" [warningReport] none = .ok first ∧
      (⟨"T", 200, RuleTable.empty⟩ : Tracer).run "<a/>" (warningReport :: errorReports) none =
        .ok joint ∧
      (⟨"T", 200, RuleTable.empty⟩ : Tracer).run "<a/>" (errorReports ++ [warningReport]) none =
        .ok shuffled ∧
      first.verdicts = [(.peppol, true)] ∧ joint.verdicts.lookup .peppol = some false ∧
      joint.errorCount = 2 ∧ joint.warningCount = 1 ∧ joint.CountsAlike shuffled := by
  obtain ⟨happend, hperm⟩ := run_reports_append ⟨"T", 200, RuleTable.empty⟩ "<a/>" none
  obtain ⟨first, hfirst, hverdicts, herrors, hwarnings⟩ : ∃ first,
      (⟨"T", 200, RuleTable.empty⟩ : Tracer).run "<a/>" [warningReport] none = .ok first ∧
      first.verdicts = [(.peppol, true)] ∧ first.errorCount = 0 ∧ first.warningCount = 1 :=
    ⟨_, rfl, rfl, rfl, rfl⟩
  obtain ⟨second, hsecond, hverdicts', herrors', hwarnings'⟩ : ∃ second,
      (⟨"T", 200, RuleTable.empty⟩ : Tracer).run "<a/>" errorReports none = .ok second ∧
      second.verdicts = [(.peppol, false), (.xsd, false)] ∧ second.errorCount = 2 ∧
      second.warningCount = 0 :=
    ⟨_, rfl, rfl, rfl, rfl⟩
  obtain ⟨joint, hjoint, hjoins⟩ := happend [warningReport] errorReports first second hfirst hsecond
  obtain ⟨shuffled, hshuffled, halike⟩ :=
    hperm _ (errorReports ++ [warningReport]) joint List.perm_append_comm hjoint
  refine ⟨first, joint, shuffled, hfirst, hjoint, hshuffled, hverdicts, ?_, ?_, ?_, halike⟩
  · rw [hjoins.verdicts, hverdicts, hverdicts']
    rfl
  · rw [hjoins.errors, herrors, herrors']
  · rw [hjoins.warnings, hwarnings, hwarnings']

end Tracer

end StylesheetTrace
