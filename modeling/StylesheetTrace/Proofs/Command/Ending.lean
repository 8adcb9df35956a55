import StylesheetTrace.Proofs.Command.Work
import StylesheetTrace.Proofs.RuleTable.Override
import StylesheetTrace.Proofs.Run.Refusal
import StylesheetTrace.Proofs.Stylesheet.Erasure

/-!
# How commands end

The commands other than the one for the server read all their files first, compute, and then write
their files. They go wrong with the first file that can not be read, with what they compute, or with
the first file that can not be written (`GoesWrong`). The program ends with an exit code unless a
command goes wrong in a way that breaks it off: a file that encodes no text, a path with the null
character, an option for which nothing is given, a number that is too long, and a file of rules that
the reading of YAML breaks down on. All else that goes wrong, such as a file that is not there,
leads to the exit code 2 (`run_finished_iff`).
-/

namespace StylesheetTrace.Command

open StylesheetTrace.Text

/-! ## What goes wrong -/

/-- The files that an action reads, in order. A trace reads the file of rules of the settings last.
-/
def inputs (s : Settings) : Action → List (Given Path)
  | .instrument program _ => [.value program]
  | .split raw _ _ => [.value raw]
  | .trace raw reports schemaLog program =>
    .value raw :: ((reportFiles reports schemaLog).map (.map fun r => r.2.2) ++
      (program.toList.map .value ++ s.rulesFile.toList.map .value))
  | .serve => []

/-- The texts that a trace reads. -/
structure Material where
  /-- The raw output. -/
  output : String
  /-- The reports of the validators. -/
  reports : List ValidatorReport
  /-- The stylesheet, if it is named. -/
  stylesheet : Option String
  /-- The text that overrides rules, if the settings name one. -/
  rules : Option String

/-- What a trace reads from its files. -/
def materialOf (tree : FileTree) (s : Settings) (raw : Path)
    (reports : List (Given (Source × Path))) (schemaLog : Option (Given Path))
    (program : Option Path) : Except FailureKind Material := do
  let output ← textOf tree (.value raw)
  let reports ← (reportFiles reports schemaLog).mapM (reportOf tree)
  let stylesheet ← textOf? tree program
  let rules ← textOf? tree s.rulesFile
  pure ⟨output, reports, stylesheet, rules⟩

/-- The table of rules that a text overrides, if there is one. -/
def tableOf : Option String → Except RuleTable.OverrideError RuleTable
  | none => .ok .default
  | some text => RuleTable.default.overrideBy text.toList

/-- The settings as a tracer with a table of rules. -/
def tracerWith (s : Settings) (table : RuleTable) : Tracer := ⟨s.sentinel, s.reportLimit, table⟩

/-- What an action writes when nothing goes wrong before: the files that are given, with their
texts. -/
inductive Produces (directory : Path) (tree : FileTree) (s : Settings) :
    Action → List (Given Path × String) → Prop
  | instrument {program output text out} (htext : textOf tree (.value program) = .ok text)
      (hout : Stylesheet.instrument s.sentinel (Path.absolute directory program).text text =
        .ok out) :
      Produces directory tree s (.instrument program output) (output.toList.map fun x => (x, out))
  | split {raw output entries text parts} (htext : textOf tree (.value raw) = .ok text)
      (hparts : Output.split s.sentinel text = .ok parts) :
      Produces directory tree s (.split raw output entries)
        ((output.toList.map fun x => (x, parts.text)) ++
          entries.toList.map fun x => (x, (Json.arr (parts.entries.map Answer.entry)).pretty))

/-- An action goes wrong in a way that is reported, or in one that breaks the program off. -/
inductive GoesWrong (directory : Path) (tree : FileTree) (s : Settings) :
    Action → FailureKind → Prop
  /-- The first of the files that can not be read. -/
  | input {a pre x post kind} (hinputs : inputs s a = pre ++ x :: post)
      (hpre : ∀ y ∈ pre, HasResult (textOf tree y)) (hx : textOf tree x = .error kind) :
      GoesWrong directory tree s a kind
  /-- A marker that can not be written into a stylesheet. -/
  | marker {program output text e} (htext : textOf tree (.value program) = .ok text)
      (hmarker : Stylesheet.instrument s.sentinel (Path.absolute directory program).text text =
        .error e) :
      GoesWrong directory tree s (.instrument program output) .reported
  /-- A marker with a number that is too long in a raw output that is split. -/
  | longMarker {raw output entries text ds} (htext : textOf tree (.value raw) = .ok text)
      (hmarker : ds ∈ Output.markerRows s.sentinel text) (hlong : TooLong.limit < ds.length) :
      GoesWrong directory tree s (.split raw output entries) .breaking
  /-- Rules that are refused. -/
  | rules {raw reports schemaLog program m e}
      (hm : materialOf tree s raw reports schemaLog program = .ok m)
      (he : tableOf m.rules = .error e) (hrefusal : e.IsRefusal) :
      GoesWrong directory tree s (.trace raw reports schemaLog program) .reported
  /-- Rules on which the reading of YAML breaks down. -/
  | breakdown {raw reports schemaLog program m b}
      (hm : materialOf tree s raw reports schemaLog program = .ok m)
      (hb : tableOf m.rules = .error (.yaml (.broken b))) :
      GoesWrong directory tree s (.trace raw reports schemaLog program) .breaking
  /-- A report that is too large, before any number that is too long. -/
  | oversized {raw reports schemaLog program m table}
      (hm : materialOf tree s raw reports schemaLog program = .ok m)
      (htable : tableOf m.rules = .ok table)
      (hmarkers : ∀ ds ∈ Output.markerRows s.sentinel m.output, ds.length ≤ TooLong.limit)
      (hlarge : (tracerWith s table).FirstOversized m.reports) :
      GoesWrong directory tree s (.trace raw reports schemaLog program) .reported
  /-- A number that is too long, in the raw output or before any report that is too large. -/
  | longNumber {raw reports schemaLog program m table}
      (hm : materialOf tree s raw reports schemaLog program = .ok m)
      (htable : tableOf m.rules = .ok table)
      (hlong : (∃ ds ∈ Output.markerRows s.sentinel m.output, TooLong.limit < ds.length) ∨
        (tracerWith s table).FirstLongNumber m.reports) :
      GoesWrong directory tree s (.trace raw reports schemaLog program) .breaking
  /-- The first of the files that can not be written. -/
  | output {a outs pre x post tree' kind} (houts : Produces directory tree s a outs)
      (hsplit : outs = pre ++ x :: post) (hpre : writtenAll tree pre = .ok tree')
      (hx : written tree' x = .error kind) : GoesWrong directory tree s a kind

/-! ## What an action comes to -/

/-- What the tracing of a run comes to. -/
def resultIn (s : Settings) (table : RuleTable) (m : Material) : Except FailureKind RunResult :=
  ((tracerWith s table).run m.output m.reports m.stylesheet).mapError
    fun e => (Failure.input e).kind

/-- What an action comes to on a tree: an exit code and the tree that it leaves, or a failure of a
kind. -/
def performed (directory : Path) (tree : FileTree) (s : Settings) :
    Action → Except FailureKind (Nat × FileTree)
  | .instrument program output => do
    let text ← textOf tree (.value program)
    let out ← (Stylesheet.instrument s.sentinel (Path.absolute directory program).text
      text).mapError fun e => (Failure.marker e).kind
    let tree' ← writtenAll tree (output.toList.map fun x => (x, out))
    pure (0, tree')
  | .split raw output entries => do
    let text ← textOf tree (.value raw)
    let parts ← (Output.split s.sentinel text).mapError fun _ => .breaking
    let tree' ← writtenAll tree ((output.toList.map fun x => (x, parts.text)) ++
      entries.toList.map fun x => (x, (Json.arr (parts.entries.map Answer.entry)).pretty))
    pure (0, tree')
  | .trace raw reports schemaLog program => do
    let m ← materialOf tree s raw reports schemaLog program
    let table ← (tableOf m.rules).mapError fun e => (Failure.rules e).kind
    let result ← resultIn s table m
    pure (exitCode result, tree)
  | .serve => pure (0, tree)

variable {directory : Path} {tree : FileTree} {s : Settings} {ctx : Context}

/-- A stylesheet is instrumented. -/
theorem ends_instrument (program : Path) (output : Option (Given Path)) :
    Ends tree (instrument (treeHost directory) ctx program output)
      (performed directory tree ctx.settings (.instrument program output)) := by
  refine (gives_readText program).bind_ends fun text => ?_
  refine (gives_attempt .marker _).bind_ends fun out => ?_
  exact (writes_emit output out).bind fun _ => gives_pure 0

/-- A raw output is split. -/
theorem ends_split (raw : Path) (output entries : Option (Given Path)) :
    Ends tree (split (treeHost directory) ctx raw output entries)
      (performed directory tree ctx.settings (.split raw output entries)) := by
  refine (gives_readText raw).bind_ends fun text => ?_
  refine (gives_attempt _ _).bind_ends fun parts => ?_
  rw [writtenAll, List.foldlM_append, bind_assoc]
  refine (writes_emit output parts.text).bind fun tree' => ?_
  cases entries with
  | none => exact gives_pure 0
  | some x =>
    rw [Option.toList_some, List.map_singleton, List.foldlM_cons, bind_assoc]
    exact (writes_writeGiven x _ _).bind fun _ => gives_pure 0

/-- The table of rules of the settings is read. -/
theorem gives_tracer : Gives tree (tracer (treeHost directory) s)
    (textOf? tree s.rulesFile >>= fun rules =>
      ((tableOf rules).mapError fun e => (Failure.rules e).kind) >>= fun table =>
        .ok (tracerWith s table)) := by
  have htable : Gives tree (ruleTable (treeHost directory) s) (textOf? tree s.rulesFile >>=
      fun rules => (tableOf rules).mapError fun e => (Failure.rules e).kind) := by
    unfold ruleTable
    cases s.rulesFile with
    | none => exact gives_pure RuleTable.default
    | some p =>
      have hread := (@gives_readText tree directory p).bind fun text =>
        gives_attempt .rules (RuleTable.default.overrideBy text.toList)
      cases htext : textOf tree (.value p) with
      | error kind =>
        rw [htext] at hread
        simp only [textOf?, htext]
        exact hread
      | ok text =>
        rw [htext] at hread
        simp only [textOf?, htext]
        exact hread
  rw [← bind_assoc]
  exact htable.bind fun table => gives_pure _

/-- The reports on a raw output are traced. -/
theorem ends_trace (raw : Path) (reports : List (Given (Source × Path)))
    (schemaLog : Option (Given Path)) (program : Option Path) :
    Ends tree (trace (treeHost directory) ctx raw reports schemaLog program)
      (performed directory tree ctx.settings (.trace raw reports schemaLog program)) := by
  -- Behind the reading of files only the run can fail.
  have hrun : ∀ text rs stylesheet (t : Tracer),
      Ends tree (do
        note (t.records ctx.threshold text rs)
        let result ← attempt .input (t.run text rs stylesheet)
        print ((resultJson result).pretty ++ "\n")
        pure (exitCode result))
        (((t.run text rs stylesheet).mapError fun e => (Failure.input e).kind) >>= fun result =>
          .ok (exitCode result, tree)) := fun text rs stylesheet t =>
    (gives_note _).bind_ends fun _ => (gives_attempt .input _).bind_ends fun result =>
      (gives_print _).bind_ends fun _ => gives_pure (exitCode result)
  have hsteps := (@gives_readText tree directory raw).bind_ends fun text =>
    (@gives_reports tree directory reports schemaLog).bind_ends fun rs =>
      (@gives_readText? tree directory program).bind_ends fun stylesheet =>
        (@gives_tracer directory tree ctx.settings).bind_ends fun t => hrun text rs stylesheet t
  simp only [bind_assoc, pure_bind] at hsteps
  unfold performed materialOf
  simp only [bind_assoc, pure_bind]
  exact hsteps

/-- Whatever an action does is done on the tree. -/
theorem ends_perform (a : Action) : Ends tree (perform (treeHost directory) ctx a)
    (performed directory tree ctx.settings a) := by
  cases a with
  | instrument program output => exact ends_instrument program output
  | split raw output entries => exact ends_split raw output entries
  | trace raw reports schemaLog program => exact ends_trace raw reports schemaLog program
  | serve => exact fun t => ⟨.ok 0, _, tree, rfl, rfl⟩

/-! ## When an action goes wrong -/

/-- The files of a trace are read in order. -/
theorem materialOf_eq_error {raw : Path} {reports : List (Given (Source × Path))}
    {schemaLog : Option (Given Path)} {program : Option Path} {kind : FailureKind} :
    materialOf tree s raw reports schemaLog program = .error kind ↔
      (inputs s (.trace raw reports schemaLog program)).mapM (textOf tree) = .error kind := by
  -- The texts that are read differ from what is made of them, so only the refusals are compared.
  have hreport : ∀ g : Given ReportFile,
      refusalOf (textOf tree (g.map fun r => r.2.2)) = refusalOf (reportOf tree g) := by
    rintro (⟨source, kind, p⟩ | _)
    · exact refusalOf_map.symm
    · rfl
  have hgiven : ∀ p : Option Path, refusalOf ((p.toList.map Given.value).mapM (textOf tree)) =
      refusalOf (textOf? tree p) := by
    rintro (_ | p)
    · rfl
    · rw [textOf?, refusalOf_map, Option.toList_some, List.map_singleton, refusalOf_mapM_cons]
      exact bind_pure _
  have hmaterial : refusalOf (materialOf tree s raw reports schemaLog program) =
      refusalOf ((inputs s (.trace raw reports schemaLog program)).mapM (textOf tree)) := by
    rw [inputs, refusalOf_mapM_cons, refusalOf_mapM_append, refusalOf_mapM_append, hgiven, hgiven,
      refusalOf_mapM_map hreport]
    exact refusalOf_bind fun _ => refusalOf_bind fun _ => refusalOf_bind fun _ =>
      refusalOf_bind_pure
  rw [← refusalOf_eq_error, hmaterial, refusalOf_eq_error]

/-- An action goes wrong with the files that it reads when one of them can not be read. -/
theorem goesWrong_of_mapM {a : Action} {kind : FailureKind}
    (h : (inputs s a).mapM (textOf tree) = .error kind) : GoesWrong directory tree s a kind := by
  obtain ⟨pre, x, post, hinputs, hpre, hx⟩ := mapM_eq_error.mp h
  exact .input hinputs hpre hx

/-- An action goes wrong with the files that it writes when one of them can not be written. -/
theorem goesWrong_of_writtenAll {a : Action} {outs : List (Given Path × String)}
    {kind : FailureKind} (houts : Produces directory tree s a outs)
    (h : writtenAll tree outs = .error kind) : GoesWrong directory tree s a kind := by
  obtain ⟨pre, x, post, tree', hsplit, hpre, hx⟩ := foldlM_eq_error.mp h
  exact .output houts hsplit hpre hx

/-- Instrumenting a stylesheet goes wrong when it is said to. -/
theorem performed_instrument_eq_error {program : Path} {output : Option (Given Path)}
    {kind : FailureKind} :
    performed directory tree s (.instrument program output) = .error kind ↔
      GoesWrong directory tree s (.instrument program output) kind := by
  refine Iff.trans steps_eq_error ?_
  constructor
  · rintro (htext | ⟨text, htext, hmarker | ⟨out, hout, hwritten⟩⟩)
    · exact goesWrong_of_mapM (mapM_singleton_eq_error.mpr htext)
    · obtain ⟨e, he, rfl⟩ := mapError_eq_error.mp hmarker
      obtain ⟨field, value, rfl⟩ := Stylesheet.eq_delimiter_of_instrument he
      exact .marker htext he
    · exact goesWrong_of_writtenAll (.instrument htext (mapError_eq_ok.mp hout)) hwritten
  · intro h
    cases h with
    | input hinputs hpre hx =>
      have htexts := mapM_eq_error.mpr ⟨_, _, _, hinputs, hpre, hx⟩
      exact Or.inl (mapM_singleton_eq_error.mp htexts)
    | marker htext he =>
      obtain ⟨field, value, rfl⟩ := Stylesheet.eq_delimiter_of_instrument he
      exact Or.inr ⟨_, htext, Or.inl (mapError_eq_error.mpr ⟨_, he, rfl⟩)⟩
    | output houts hsplit hpre hx =>
      cases houts with
      | instrument htext hout =>
        have hwritten := foldlM_eq_error.mpr ⟨_, _, _, _, hsplit, hpre, hx⟩
        exact Or.inr ⟨_, htext, Or.inr ⟨_, mapError_eq_ok.mpr hout, hwritten⟩⟩

/-- Splitting a raw output goes wrong when it is said to. -/
theorem performed_split_eq_error {raw : Path} {output entries : Option (Given Path)}
    {kind : FailureKind} :
    performed directory tree s (.split raw output entries) = .error kind ↔
      GoesWrong directory tree s (.split raw output entries) kind := by
  -- Splitting is refused for numbers only.
  have hlong : ∀ text, (∃ e, Output.split s.sentinel text = .error e) ↔
      ∃ ds ∈ Output.markerRows s.sentinel text, TooLong.limit < ds.length := fun text => by
    rw [← not_hasResult, Output.hasResult_split]
    push Not
    rfl
  refine Iff.trans steps_eq_error ?_
  constructor
  · rintro (htext | ⟨text, htext, hmarker | ⟨parts, hparts, hwritten⟩⟩)
    · exact goesWrong_of_mapM (mapM_singleton_eq_error.mpr htext)
    · obtain ⟨e, he, rfl⟩ := mapError_eq_error.mp hmarker
      obtain ⟨ds, hds, hlong⟩ := (hlong text).mp ⟨e, he⟩
      exact .longMarker htext hds hlong
    · exact goesWrong_of_writtenAll (.split htext (mapError_eq_ok.mp hparts)) hwritten
  · intro h
    cases h with
    | input hinputs hpre hx =>
      have htexts := mapM_eq_error.mpr ⟨_, _, _, hinputs, hpre, hx⟩
      exact Or.inl (mapM_singleton_eq_error.mp htexts)
    | longMarker htext hds hmarker =>
      obtain ⟨e, he⟩ := (hlong _).mpr ⟨_, hds, hmarker⟩
      exact Or.inr ⟨_, htext, Or.inl (mapError_eq_error.mpr ⟨e, he, rfl⟩)⟩
    | output houts hsplit hpre hx =>
      cases houts with
      | split htext hparts =>
        have hwritten := foldlM_eq_error.mpr ⟨_, _, _, _, hsplit, hpre, hx⟩
        exact Or.inr ⟨_, htext, Or.inr ⟨_, mapError_eq_ok.mpr hparts, hwritten⟩⟩

/-- Rules that are refused are reported, and a breakdown on them breaks the program off. -/
theorem kind_rules (e : RuleTable.OverrideError) :
    (Failure.rules e).kind = .reported ∧ e.IsRefusal ∨
      (Failure.rules e).kind = .breaking ∧ ∃ b, e = .yaml (.broken b) := by
  match e with
  | .yaml (.broken b) => exact Or.inr ⟨rfl, b, rfl⟩
  | .yaml (.fault _ _) | .yaml (.unprintable _ _) | .yaml .unevenBlock
  | .tooLong _ | .anchor | .noMapping | .notNames _ _ | .badName _ _ _ =>
    exact Or.inl ⟨rfl, trivial⟩

/-- The tracing of a run is refused and reported for the size of a report. -/
theorem resultIn_eq_reported {table : RuleTable} {m : Material} :
    resultIn s table m = .error .reported ↔
      (∀ ds ∈ Output.markerRows s.sentinel m.output, ds.length ≤ TooLong.limit) ∧
        (tracerWith s table).FirstOversized m.reports := by
  have hlarge := @Tracer.exists_run_eq_tooLarge (tracerWith s table) m.output m.reports m.stylesheet
  rw [resultIn, mapError_eq_error]
  refine Iff.trans ?_ hlarge
  constructor
  · rintro ⟨e, he, hkind⟩
    cases e with
    | tooLarge size limit => exact ⟨size, limit, he⟩
    | number e => exact absurd hkind (by simp [Failure.kind, Failure.isReported])
  · rintro ⟨size, limit, he⟩
    exact ⟨_, he, rfl⟩

/-- The tracing of a run is broken off for a number. -/
theorem resultIn_eq_breaking {table : RuleTable} {m : Material} :
    resultIn s table m = .error .breaking ↔
      (∃ ds ∈ Output.markerRows s.sentinel m.output, TooLong.limit < ds.length) ∨
        (tracerWith s table).FirstLongNumber m.reports := by
  have hnumber := @Tracer.exists_run_eq_number (tracerWith s table) m.output m.reports m.stylesheet
  rw [resultIn, mapError_eq_error]
  refine Iff.trans ?_ hnumber
  constructor
  · rintro ⟨e, he, hkind⟩
    cases e with
    | tooLarge size limit => exact absurd hkind (by simp [Failure.kind, Failure.isReported])
    | number e => exact ⟨e, he⟩
  · rintro ⟨e, he⟩
    exact ⟨_, he, rfl⟩

/-- Tracing reports goes wrong when it is said to. -/
theorem performed_trace_eq_error {raw : Path} {reports : List (Given (Source × Path))}
    {schemaLog : Option (Given Path)} {program : Option Path} {kind : FailureKind} :
    performed directory tree s (.trace raw reports schemaLog program) = .error kind ↔
      GoesWrong directory tree s (.trace raw reports schemaLog program) kind := by
  refine Iff.trans steps_eq_error ?_
  constructor
  · rintro (hinputs | ⟨m, hm, hrules | ⟨table, htable, hrun⟩⟩)
    · exact goesWrong_of_mapM (materialOf_eq_error.mp hinputs)
    · obtain ⟨e, he, rfl⟩ := mapError_eq_error.mp hrules
      rcases kind_rules e with ⟨hkind, hrefusal⟩ | ⟨hkind, b, rfl⟩
      · exact hkind ▸ .rules hm he hrefusal
      · exact .breakdown hm he
    · have htable := mapError_eq_ok.mp htable
      cases kind with
      | reported =>
        obtain ⟨hmarkers, hlarge⟩ := resultIn_eq_reported.mp hrun
        exact .oversized hm htable hmarkers hlarge
      | breaking => exact .longNumber hm htable (resultIn_eq_breaking.mp hrun)
  · intro h
    cases h with
    | input hinputs hpre hx =>
      exact Or.inl (materialOf_eq_error.mpr (mapM_eq_error.mpr ⟨_, _, _, hinputs, hpre, hx⟩))
    | @rules _ _ _ _ m e hm he hrefusal =>
      rcases kind_rules e with ⟨hkind, -⟩ | ⟨-, b, rfl⟩
      · exact Or.inr ⟨m, hm, Or.inl (mapError_eq_error.mpr ⟨e, he, hkind⟩)⟩
      · exact absurd hrefusal id
    | breakdown hm hb => exact Or.inr ⟨_, hm, Or.inl (mapError_eq_error.mpr ⟨_, hb, rfl⟩)⟩
    | oversized hm htable hmarkers hlarge =>
      have hresult := resultIn_eq_reported.mpr ⟨hmarkers, hlarge⟩
      exact Or.inr ⟨_, hm, Or.inr ⟨_, mapError_eq_ok.mpr htable, hresult⟩⟩
    | longNumber hm htable hlong =>
      have hresult := resultIn_eq_breaking.mpr hlong
      exact Or.inr ⟨_, hm, Or.inr ⟨_, mapError_eq_ok.mpr htable, hresult⟩⟩
    | output houts => exact nomatch houts

/-- An action comes to a failure of a kind exactly when it goes wrong in that way. -/
theorem performed_eq_error {a : Action} {kind : FailureKind} :
    performed directory tree s a = .error kind ↔ GoesWrong directory tree s a kind := by
  cases a with
  | instrument program output => exact performed_instrument_eq_error
  | split raw output entries => exact performed_split_eq_error
  | trace raw reports schemaLog program => exact performed_trace_eq_error
  | serve =>
    refine iff_of_false (by simp [performed, pure, Except.pure]) fun h => ?_
    cases h with
    | input hinputs => exact absurd hinputs (by simp [inputs])
    | output houts => exact nomatch houts

/-- The exit code of an action is 0 or 1. -/
theorem code_of_performed {a : Action} {code : Nat} {tree' : FileTree}
    (h : performed directory tree s a = .ok (code, tree')) : code = 0 ∨ code = 1 := by
  cases a with
  | instrument program output | split raw output entries =>
    obtain ⟨_, -, h⟩ := bind_eq_ok.mp h
    obtain ⟨_, -, h⟩ := bind_eq_ok.mp h
    obtain ⟨_, -, h⟩ := bind_eq_ok.mp h
    exact Or.inl (Prod.mk.inj (Except.ok.inj h)).1.symm
  | trace raw reports schemaLog program =>
    obtain ⟨_, -, h⟩ := bind_eq_ok.mp h
    obtain ⟨_, -, h⟩ := bind_eq_ok.mp h
    obtain ⟨result, -, h⟩ := bind_eq_ok.mp h
    rw [← (Prod.mk.inj (Except.ok.inj h)).1, exitCode]
    split
    · exact Or.inl rfl
    · exact Or.inr rfl
  | serve => exact Or.inl (Prod.mk.inj (Except.ok.inj h)).1.symm

/-! ## How the program ends -/

/-- The settings with the sentinel that a command line gives, unless it is empty. -/
def settingsWith (s : Settings) (sentinel : Option String) : Settings :=
  { s with sentinel := (sentinel.filter fun x => !x.isEmpty).getD s.sentinel }

/-- The context of a command for valid settings. -/
theorem context_eq {environment : List (String × String)} {file sentinel : Option String}
    (hsettings : Settings.load ⟨[], environment, file⟩ = .valid s) :
    context environment file sentinel =
      match LogLevel.threshold? s.logLevel with
      | none => .error (.logLevel s.logLevel)
      | some threshold => .ok ⟨settingsWith s sentinel, noticesOn file, threshold⟩ := by
  unfold context
  rw [hsettings]
  rfl

section

variable {environment : List (String × String)} {args : List String} {i : Invocation}
  {file : Option String}

/-- The program performs the action of its command line on the tree. -/
theorem exists_outcomeOf (hargs : Invocation.read args = .ok i)
    (hfile : (readVariables (treeHost directory)).run tree = (.ok file, tree))
    (hcontext : context environment file i.sentinel = .ok ctx) :
    ∃ x t tree', (run (treeHost directory) environment args).run tree =
        (outcomeOf ctx x t, tree') ∧
      (x.map fun code => (code, tree')).mapError Failure.kind =
        performed directory tree ctx.settings i.action := by
  obtain ⟨x, t, tree', hrun, heq⟩ :=
    @ends_perform directory tree ctx i.action (.ofNotices (noticesOn file))
  refine ⟨x, t, tree', ?_, heq⟩
  unfold run
  rw [hargs]
  simp only [run_bind_of_eq hfile, hcontext, run_bind_of_eq hrun]
  rfl

/-- The program with a command line that is accepted and valid settings ends with the exit code 0, 1
or 2 unless the name of the least level is unknown or the command goes wrong in a way that breaks
the program off; and these are the only ways in which it is broken off. The exit code is 2 exactly
when the command goes wrong in a way that is reported, as with a file that is not there. -/
theorem run_finished_iff (hargs : Invocation.read args = .ok i)
    (hfile : (readVariables (treeHost directory)).run tree = (.ok file, tree))
    (hsettings : Settings.load ⟨[], environment, file⟩ = .valid s) :
    ∃ outcome tree', (run (treeHost directory) environment args).run tree = (outcome, tree') ∧
      ((∃ code t, outcome = .finished code t ∧ (code = 0 ∨ code = 1 ∨ code = 2)) ↔
        LogLevel.threshold? s.logLevel ≠ none ∧
          ¬ GoesWrong directory tree (settingsWith s i.sentinel) i.action .breaking) ∧
      ((∃ f t, outcome = .broken f t) ↔
        LogLevel.threshold? s.logLevel = none ∨
          GoesWrong directory tree (settingsWith s i.sentinel) i.action .breaking) ∧
      ((∃ t, outcome = .finished 2 t) ↔
        LogLevel.threshold? s.logLevel ≠ none ∧
          GoesWrong directory tree (settingsWith s i.sentinel) i.action .reported) := by
  have hcontext := @context_eq s environment file i.sentinel hsettings
  cases hlevel : LogLevel.threshold? s.logLevel with
  | none =>
    -- The level is looked up before the command starts, where no failure is reported.
    rw [hlevel] at hcontext
    refine ⟨.broken (.logLevel s.logLevel) (.ofNotices (noticesOn file)), tree, ?_, by simp⟩
    unfold run
    rw [hargs]
    simp only [run_bind_of_eq hfile, hcontext]
    rfl
  | some threshold =>
    rw [hlevel] at hcontext
    obtain ⟨x, t, tree', hrun, heq⟩ := exists_outcomeOf hargs hfile hcontext
    refine ⟨_, tree', hrun, ?_⟩
    have hwrong : ∀ kind, GoesWrong directory tree (settingsWith s i.sentinel) i.action kind ↔
        (x.map fun code => (code, tree')).mapError Failure.kind = .error kind := fun kind => by
      rw [heq]
      exact performed_eq_error.symm
    simp only [hwrong]
    -- The action comes to a code, which is never 2, or to a failure of one of the two kinds.
    cases x with
    | ok code =>
      have hcode : code = 0 ∨ code = 1 := code_of_performed heq.symm
      rcases hcode with rfl | rfl <;> simp [outcomeOf, Except.map, Except.mapError]
    | error f =>
      cases hreported : f.isReported <;>
        simp [outcomeOf, Except.map, Except.mapError, Failure.kind, hreported]

end

/-- A file that begins like markup and encodes no text. -/
def undecodableTree : FileTree := ⟨⟨"/", []⟩, [(["raw"], [0x3c, 0x61, 0xff])]⟩

/-- Splitting the file that encodes no text breaks the program off, and splitting one that is not
there ends with the exit code 2. -/
theorem run_finished_iff_undecodableTree :
    Invocation.read ["split", "raw"] = .ok ⟨none, .split (.ofText "raw") none none⟩ ∧
    (∃ f t tree', (run (treeHost ⟨"/", []⟩) [] ["split", "raw"]).run undecodableTree =
      (.broken f t, tree')) ∧
    ∃ t tree', (run (treeHost ⟨"/", []⟩) [] ["split", "none"]).run undecodableTree =
      (.finished 2 t, tree') := by
  refine ⟨rfl, ?_, ?_⟩
  · obtain ⟨_, tree', hrun, -, hbroken, -⟩ := @run_finished_iff ⟨"/", []⟩ undecodableTree _ []
      ["split", "raw"] _ _ rfl rfl rfl
    have hinput : ∀ s, GoesWrong ⟨"/", []⟩ undecodableTree s (.split (.ofText "raw") none none)
        .breaking := fun _ => .input rfl (List.forall_mem_nil _) rfl
    obtain ⟨f, t, rfl⟩ := hbroken.mpr (Or.inr (hinput _))
    exact ⟨f, t, tree', hrun⟩
  · obtain ⟨_, tree', hrun, -, -, hreported⟩ := @run_finished_iff ⟨"/", []⟩ undecodableTree _ []
      ["split", "none"] _ _ rfl rfl rfl
    have hinput : ∀ s, GoesWrong ⟨"/", []⟩ undecodableTree s (.split (.ofText "none") none none)
        .reported := fun _ => .input rfl (List.forall_mem_nil _) rfl
    obtain ⟨t, rfl⟩ := hreported.mpr ⟨by decide +kernel, hinput _⟩
    exact ⟨t, tree', hrun⟩

end StylesheetTrace.Command
