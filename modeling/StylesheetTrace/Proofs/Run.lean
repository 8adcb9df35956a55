import StylesheetTrace.Proofs.Finding.Mapping
import StylesheetTrace.Proofs.Location.Resolve
import StylesheetTrace.Proofs.Report.Assertion
import StylesheetTrace.Proofs.Report.SchemaLog
import StylesheetTrace.Run

/-!
# Tracing the finding of a validator to its element

A run over the marked output of a tree recovers the lines of the tree and the entries of its
elements (`split_treeText`). A finding of an assertion report lands on the line of the element that
its location denotes, and is traced from there (`run_assertion`).
-/

namespace StylesheetTrace

open StylesheetTrace.Text StylesheetTrace.Markup StylesheetTrace.Location StylesheetTrace.Output
open StylesheetTrace.Report StylesheetTrace.Finding

/-! ## The clean output -/

/-- The lines of a tree as a text are its lines. -/
theorem linesOf_joinLines_texts {α : Type} (root : Element α) :
    linesOf (joinLines (texts root.lines)) = texts root.lines := by
  have htexts : texts root.lines = (root.lines.map Line.chars).map String.ofList := by
    rw [List.map_map]
    rfl
  have hlines : lines (['\n'].intercalate (root.lines.map Line.chars)) =
      root.lines.map Line.chars := by
    refine lines_join (by simp [root.lines_eq]) ?_ ?_
    · exact List.forall_mem_map.mpr fun l _ => feed_not_mem_line l
    · rw [← List.map_dropLast]
      exact List.forall_mem_map.mpr fun l _ => by simp [getLast?_line]
  rw [linesOf, htexts, toList_joinLines, hlines]

/-- The text of a tree is not empty. -/
theorem joinLines_texts_ne {α : Type} (root : Element α) : joinLines (texts root.lines) ≠ "" := by
  intro h
  have hlines := linesOf_joinLines_texts root
  rw [h, root.lines_eq, texts_cons] at hlines
  have hchars : [] = root.startLine.chars := String.ofList_inj.mp (List.cons.inj hlines).1
  have hlast := getLast?_line root.startLine
  rw [← hchars] at hlast
  exact absurd hlast (by simp)

/-- The names of the elements that an issue is about. -/
def issueNames (t : Tracer) (i : Issue) : List String :=
  names t.table rootElements i.message i.ruleId

/-- The issues of a run over the output of a tree are traced with the lines and the entries of the
tree. -/
theorem traceIssues_tree (t : Tracer) (root : Element Marking) (issues : List Issue) :
    traceIssues t.table rootElements ((root.nodes 1).map nodeEntry)
      (some (joinLines (texts root.lines))) issues =
        issues.map fun i => traceTo ((root.nodes 1).map nodeEntry) (texts root.lines)
          (issueNames t i) (.ofIssue i) := by
  have hempty : (joinLines (texts root.lines)).isEmpty = false := by
    simpa using joinLines_texts_ne root
  rw [traceIssues, Option.getD_some, hempty, Bool.and_false, if_neg Bool.false_ne_true,
    if_neg Bool.false_ne_true, linesOf_joinLines_texts, sorted_nodeEntry]
  rfl

/-- A run over the output of a tree with one report traces the issues of the report. -/
theorem run_tree {t : Tracer} (hsentinel : '\n' ∉ t.sentinel.toList) (root : Element Marking)
    {report : ValidatorReport} {issues : List Issue}
    (h : t.reportIssues (texts root.lines) report = .ok issues) (program : Option String) :
    ∃ r, t.run (treeText t.sentinel root) [report] program = .ok r ∧
      r.output = ⟨texts root.lines, (root.nodes 1).map nodeEntry⟩ ∧
      r.issues = issues ∧
      (r.traced = issues.map fun i => traceTo ((root.nodes 1).map nodeEntry) (texts root.lines)
        (issueNames t i) (.ofIssue i)) ∧
      r.verdicts = [(report.source, !issues.any Issue.isError)] := by
  have hlines : (⟨texts root.lines, (root.nodes 1).map nodeEntry⟩ : Split).lines =
      texts root.lines := by
    rw [Split.lines, root.lines_eq]
    rfl
  refine ⟨t.resultOf ⟨texts root.lines, (root.nodes 1).map nodeEntry⟩ [(report, issues)] program,
    ?_, rfl, ?_, ?_, rfl⟩
  · unfold Tracer.run
    rw [split_treeText hsentinel root]
    simp only [Except.mapError, bind, Except.bind, List.mapM_cons, List.mapM_nil, hlines, h]
    rfl
  · simp [Tracer.resultOf]
  · rw [← traceIssues_tree]
    simp [Tracer.resultOf, Split.text]

/-! ## Assertion reports -/

/-- The issue that a violation stands for on a line. -/
def issueAt (source : Source) (v : Violation) (line : Nat) : Issue :=
  { line
    column := 0
    message := labelled v.ruleId v.message
    severity := severityOf v.flag
    ruleId := v.ruleId
    source }

/-- An issue that is moved to another line. -/
theorem issueAt_with_line (source : Source) (v : Violation) (k m : Nat) :
    { issueAt source v k with line := m } = issueAt source v m := by
  unfold issueAt
  with_reducible rfl

/-- The issue of a violation is an error when its flag is one. -/
theorem isError_issueAt (source : Source) (v : Violation) (k : Nat) :
    (issueAt source v k).isError = (severityOf v.flag == .error) := by
  unfold issueAt Issue.isError
  with_reducible rfl

/-- A violation whose location denotes an element stands for an issue on the line of its start tag.
-/
theorem issueOf_pathText {α : Type} {root x : Element α} {path : List PathStep} {j : Nat}
    (hnode : root.node? path = some (j, x)) (hdirect : root.Direct path.tail)
    (hindex : ∀ s ∈ path, s.index < 10 ^ TooLong.limit) (source : Source) {v : Violation}
    (hv : v.location = pathText path) :
    issueOf source (texts root.lines) v = .ok (issueAt source v (j + 1)) := by
  have hlocate := locate?_node? hnode hdirect []
  rw [List.append_nil] at hlocate
  rw [issueOf, hv, steps_pathText (Element.node?_index_pos hnode) hindex]
  simp only [Except.map, hlocate]
  rfl

/-- The finding of an assertion report at a path of a tree lands on the line of the element that the
path denotes. If an element of the tree bears one of the names that the finding is about, the
finding is moved to the first of these. If none does, it stays on its line and has the origin of the
element there, unless that is one of the first two lines. -/
theorem run_assertion {t : Tracer} (hsentinel : '\n' ∉ t.sentinel.toList)
    {root x : Element Marking} {path : List PathStep} {j : Nat}
    (hnode : root.node? path = some (j, x)) (hdirect : root.Direct path.tail)
    (hindex : ∀ s ∈ path, s.index < 10 ^ TooLong.limit) {b : WrittenBlock}
    (hlocation : b.value .location = pathText path)
    (hlimit : (b.chars.length : Int) ≤ t.reportLimit) (source : Source)
    (program : Option String) :
    ∃ r, t.run (treeText t.sentinel root) [⟨source, .svrl, String.ofList b.chars⟩] program = .ok r ∧
      r.output = ⟨texts root.lines, (root.nodes 1).map nodeEntry⟩ ∧
      r.issues = [issueAt source b.violation (j + 1)] ∧
      root.lines[j]? = some x.startLine ∧
      (∀ p, named? root (issueNames t (issueAt source b.violation (j + 1))) = some p →
        r.traced = [⟨issueAt source b.violation p.1, some (origin p.2)⟩]) ∧
      (named? root (issueNames t (issueAt source b.violation (j + 1))) = none →
        (∀ n ∈ issueNames t (issueAt source b.violation (j + 1)), NameLike n.toList) →
        r.traced = [⟨issueAt source b.violation (j + 1),
          if j + 1 ≤ degenerateLines then none else some (origin x)⟩]) ∧
      r.verdicts = [(source, severityOf b.violation.flag != .error)] := by
  -- The report states one violation, and the location of the violation is resolved to the line.
  have hissue : issueOf source (texts root.lines) b.violation =
      .ok (issueAt source b.violation (j + 1)) :=
    issueOf_pathText hnode hdirect hindex source hlocation
  have hissues : t.reportIssues (texts root.lines) ⟨source, .svrl, String.ofList b.chars⟩ =
      .ok [issueAt source b.violation (j + 1)] := by
    rw [Tracer.reportIssues]
    simp only [violations_chars b hlimit, bind, Except.bind, issuesOf, List.mapM_cons,
      List.mapM_nil, hissue]
    rfl
  obtain ⟨r, hrun, houtput, hrissues, htraced, hverdicts⟩ := run_tree hsentinel root hissues program
  refine ⟨r, hrun, houtput, hrissues, (resolve_pathText hnode hdirect hindex [] 0).2, ?_, ?_, ?_⟩
  · intro p hp
    rw [htraced, List.map_singleton, traceTo_named hp, issueAt_with_line]
  · intro hnone hlike
    have hx : ((issueAt source b.violation (j + 1)).line, x) ∈ root.nodes 1 :=
      Element.node?_mem_nodes hnode
    rw [htraced, List.map_singleton, traceTo_unnamed hlike hnone hx]
    rfl
  · rw [hverdicts, List.any_cons, List.any_nil, Bool.or_false, isError_issueAt, bne]

/-- The stamp of the `n`-th element of a sample, on line `n + 20` of its stylesheet. -/
def sampleMarking (n : Nat) : Marking :=
  ⟨⟨[' '], "map.xsl".toList, min n 7 + 20⟩, by
    have hindent : ∀ c ∈ [' '], isBlank c = true ∧ c ≠ '\n' :=
      List.all_iff_forall_prop.mp (by decide)
    have hfile : ∀ c ∈ "map.xsl".toList, c ≠ '|' ∧ c ≠ '\n' :=
      List.all_iff_forall_prop.mp (by decide)
    have hopen : ¬ commentEnd <:+: "map.xsl".toList := occurs_eq_false.mp (by decide)
    have hlimit : 27 < 10 ^ TooLong.limit := by decide +kernel
    have hle : min n 7 + 20 ≤ 27 := by omega
    have hpos : 1 ≤ min n 7 + 20 := by omega
    exact ⟨hindent, hfile, hopen, hpos, Nat.lt_of_le_of_lt hle hlimit⟩⟩

/-- A failed assertion about the second `a` of the sample, with a message that has to be escaped. -/
def sampleBlock : WrittenBlock :=
  { kind := .failedAssert
    qualifier := some ⟨"svrl".toList, by decide, List.all_eq_true.mp (by decide)⟩
    textQualifier := some ⟨"svrl".toList, by decide, List.all_eq_true.mp (by decide)⟩
    order := [(.id, .double), (.location, .single), (.flag, .double)]
    value := fun f => match f with
      | .id => "R1"
      | .flag => "warning"
      | .location => pathText nestedPath
    message := "1 < 2 & more"
    gap := ['\n']
    complete := fun f => by cases f <;> decide
    gap_ok := by decide }

/-- The finding is traced to the marker of the element inside the second `c`. -/
theorem run_assertion_sample :
    ∃ r, Tracer.default.run (treeText "XSLT-TRACE" (nestedTree sampleMarking))
        [⟨.en16931, .svrl, String.ofList sampleBlock.chars⟩] none = .ok r ∧
      r.traced = [⟨⟨8, 0, "[R1] 1 < 2 & more", .warning, some "R1", .en16931⟩,
        some ⟨"map.xsl", 27, "a"⟩⟩] := by
  have hnode : (nestedTree sampleMarking).node? nestedPath = some (7, _) := rfl
  have hdirect : (nestedTree sampleMarking).Direct nestedPath.tail := by decide
  have hindex : ∀ s ∈ nestedPath, s.index < 10 ^ TooLong.limit := by decide +kernel
  have hlimit : (sampleBlock.chars.length : Int) ≤ Tracer.default.reportLimit := by decide +kernel
  have hnames : issueNames Tracer.default (issueAt .en16931 sampleBlock.violation 8) = [] := by
    decide +kernel
  obtain ⟨r, hrun, -, -, -, -, htraced, -⟩ := @run_assertion Tracer.default (by decide) _ _
    nestedPath 7 hnode hdirect hindex sampleBlock rfl hlimit .en16931 none
  rw [hnames] at htraced
  refine ⟨r, hrun, (htraced rfl (by simp)).trans ?_⟩
  decide +kernel

/-! ## Logs of schema validation -/

/-- A finding of a schema validator is about the element that it names, whatever its namespace and
its detail are. -/
theorem issueNames_schema (t : Tracer) (f : SchemaFinding) (h : f.name.text ∉ rootElements) :
    issueNames t f.issue = [f.name.text] := by
  have huri : '\x7d' ∉ f.uri := fun hmem => (f.uri_ok _ hmem).1 rfl
  have hmessage : f.issue.message = String.ofList (strip f.message) := rfl
  rw [issueNames, hmessage, f.strip_message]
  exact names_schemaMessage huri f.name_ok h t.table _

/-- The finding of a schema validator about the only element of a tree with some name is moved to
the line of the element and has its origin, whatever the line, the namespace and the detail of the
finding are. -/
theorem run_schemaLog {t : Tracer} (hsentinel : '\n' ∉ t.sentinel.toList)
    {root x : Element Marking} {i : Nat} {f : SchemaFinding}
    (honly : (root.nodes 1).filter (fun p => p.2.name = f.name) = [(i, x)])
    (hroots : f.name.text ∉ rootElements) (ended : Bool) (source : Source)
    (program : Option String) :
    ∃ r, t.run (treeText t.sentinel root)
        [⟨source, .xmllint, String.ofList (f.chars ++ if ended then ['\n'] else [])⟩] program =
          .ok r ∧
      r.output = ⟨texts root.lines, (root.nodes 1).map nodeEntry⟩ ∧
      r.issues = [f.issue] ∧
      root.lines[i - 1]? = some x.startLine ∧
      r.traced = [⟨{ f.issue with line := i }, some (origin x)⟩] ∧
      r.verdicts = [(source, false)] := by
  have hissues : t.reportIssues (texts root.lines)
      ⟨source, .xmllint, String.ofList (f.chars ++ if ended then ['\n'] else [])⟩ =
        .ok [f.issue] := by
    rw [Tracer.reportIssues]
    simp only [logIssues_chars f ended]
    rfl
  -- The message names the element, which the tree has only once.
  have hnamed : named? root (issueNames t f.issue) = some (i, x) := by
    rw [issueNames_schema t f hroots]
    exact named?_of_unique honly
  have hx : (i, x) ∈ root.nodes 1 := by
    have hmem : (i, x) ∈ [(i, x)] := List.mem_singleton_self _
    rw [← honly] at hmem
    exact (List.mem_filter.mp hmem).1
  obtain ⟨r, hrun, houtput, hrissues, htraced, hverdicts⟩ := run_tree hsentinel root hissues program
  have hline := Element.getElem?_of_standsAt (Element.standsAt_of_mem_nodes hx)
  refine ⟨r, hrun, houtput, hrissues, hline, ?_, hverdicts⟩
  rw [htraced, List.map_singleton, traceTo_named hnamed]

/-- A finding about the element `ab` of the sample, with a detail that mentions another element. -/
def sampleFinding : SchemaFinding :=
  { path := "out.xml".toList
    line := 3
    name := longerName
    uri := "urn:o".toList
    detail := "This element is not expected. Expected is ( \x7burn:o\x7dc ).".toList
    path_ok := List.all_iff_forall_prop.mp (by decide)
    line_lt := by decide +kernel
    name_ok := ⟨by decide, List.all_eq_true.mp (by decide)⟩
    uri_ok := List.all_iff_forall_prop.mp (by decide)
    detail_ok := List.all_iff_forall_prop.mp (by decide)
    unsummarised := occurs_eq_false.mp (by decide +kernel) }

/-- The finding is moved to its element and traced to the marker there. -/
theorem run_schemaLog_sample :
    ∃ r, Tracer.default.run (treeText "XSLT-TRACE" (nestedTree sampleMarking))
        [⟨.xsd, .xmllint, String.ofList (sampleFinding.chars ++ ['\n'])⟩] none = .ok r ∧
      r.traced = [⟨⟨5, 0, String.ofList sampleFinding.message, .error, none, .xsd⟩,
        some ⟨"map.xsl", 24, "ab"⟩⟩] := by
  have honly : ((nestedTree sampleMarking).nodes 1).filter
      (fun p => p.2.name = sampleFinding.name) = [(5, _)] := rfl
  have hroots : sampleFinding.name.text ∉ rootElements := by decide +kernel
  obtain ⟨r, hrun, -, -, -, htraced, -⟩ := @run_schemaLog Tracer.default (by decide) _ _ 5
    sampleFinding honly hroots true .xsd none
  refine ⟨r, hrun, htraced.trans ?_⟩
  decide +kernel

end StylesheetTrace
