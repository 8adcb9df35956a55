import StylesheetTrace.Command
import StylesheetTrace.Proofs.RunStore.Summary

/-!
# The exit code of a trace

A trace on the command line reads its files one after the other, and where every one of them can be
read, the exit code tells whether all validators passed. They did exactly when the result has no
error (`all_passed_iff`), so that the exit code is 0 exactly for a result without errors
(`exitCode_of_successfulTrace`).
-/

namespace StylesheetTrace.Command

open StylesheetTrace.Text

/-! ## Work that only reads -/

/-- Behind what was done on a tree goes on what is done with its result on the tree that it left. -/
theorem run_bind_of_eq {α β : Type} {m : StateM FileTree α} {tree tree' : FileTree} {a : α}
    (h : m.run tree = (a, tree')) (f : α → StateM FileTree β) :
    (m >>= f).run tree = (f a).run tree' := by
  show (f (m.run tree).1).run (m.run tree).2 = _
  rw [h]

/-- On a tree of files the work has a result, and it leaves the tree and the transcript as they
are. -/
def Reads {α : Type} (tree : FileTree) (w : Work (StateM FileTree) α) (a : α) : Prop :=
  ∀ t : Transcript, (w.run t).run tree = ((.ok a, t), tree)

/-- Behind work that only reads, what goes on with its result starts where it did. -/
theorem run_bind_of_reads {α β : Type} {tree : FileTree} {w : Work (StateM FileTree) α} {a : α}
    (h : Reads tree w a) (f : α → Work (StateM FileTree) β) (t : Transcript) :
    ((w >>= f).run t).run tree = ((f a).run t).run tree := by
  show (w.run t >>= fun p => ExceptT.bindCont f p.1 p.2).run tree = _
  rw [run_bind_of_eq (h t)]
  rfl

/-! ## A trace that succeeds -/

/-- A command line that asks for a trace, all of whose files can be read on the tree, and for which
the tracer that its settings describe gives a result. -/
structure SuccessfulTrace (directory : Path) (environment : List (String × String))
    (args : List String) (tree : FileTree) where
  /-- The sentinel of the command line. -/
  sentinel : Option String
  /-- The path of the raw output. -/
  raw : Path
  /-- The assertion reports that are given. -/
  given : List (Given (Source × Path))
  /-- The schema log that is given. -/
  schemaLog : Option (Given Path)
  /-- The path of the stylesheet. -/
  program : Option Path
  /-- The text of the file of variables. -/
  variableText : Option String
  /-- What the command works with. -/
  ctx : Context
  /-- The raw output. -/
  output : String
  /-- The assertion reports. -/
  assertions : List ValidatorReport
  /-- The schema log, as a list of reports. -/
  log : List ValidatorReport
  /-- The text of the stylesheet. -/
  stylesheet : Option String
  /-- The tracer that the settings describe. -/
  tracer : Tracer
  /-- What the run comes to. -/
  result : RunResult
  /-- The command line asks for the trace. -/
  read_args : Invocation.read args = .ok ⟨sentinel, .trace raw given schemaLog program⟩
  /-- The file of variables can be read, if there is one. -/
  read_variables : (readVariables (treeHost directory)).run tree = (.ok variableText, tree)
  /-- The settings are valid. -/
  context_eq : context environment variableText sentinel = .ok ctx
  /-- The raw output can be read. -/
  read_output : Reads tree (readText (treeHost directory) raw) output
  /-- The assertion reports can be read. -/
  read_reports : Reads tree (given.mapM (readReport (treeHost directory))) assertions
  /-- The schema log can be read. -/
  read_log : Reads tree (readLog (treeHost directory) schemaLog) log
  /-- The stylesheet can be read, if it is named. -/
  read_program : Reads tree (readText? (treeHost directory) program) stylesheet
  /-- The rules can be read. -/
  read_tracer : Reads tree (Command.tracer (treeHost directory) ctx.settings) tracer
  /-- The run is not refused. -/
  run_eq : tracer.run output (assertions ++ log) stylesheet = .ok result

section

variable {directory : Path} {environment : List (String × String)} {args : List String}
  {tree : FileTree} (x : SuccessfulTrace directory environment args tree)

/-- The transcript behind a trace: what was noted on the way, and the result. -/
def SuccessfulTrace.transcript (t : Transcript) : Transcript :=
  { t with
    output := t.output ++ ((resultJson x.result).pretty ++ "\n")
    log := t.log ++ x.tracer.records x.ctx.threshold x.output (x.assertions ++ x.log) }

/-- A successful trace writes no file, prints its result and ends with the exit code for it. -/
theorem SuccessfulTrace.run_trace (t : Transcript) :
    ((trace (treeHost directory) x.ctx x.raw x.given x.schemaLog x.program).run t).run tree =
      ((.ok (exitCode x.result), x.transcript t), tree) := by
  unfold trace
  rw [run_bind_of_reads x.read_output, run_bind_of_reads x.read_reports,
    run_bind_of_reads x.read_log, run_bind_of_reads x.read_program,
    run_bind_of_reads x.read_tracer, x.run_eq]
  rfl

/-- So does the program with the command line that asks for the trace. -/
theorem SuccessfulTrace.run_args :
    (run (treeHost directory) environment args).run tree =
      (.finished (exitCode x.result)
        (x.transcript (.ofNotices (noticesOn x.variableText))), tree) := by
  have hrest : ∀ u : Transcript,
      ((perform (treeHost directory) x.ctx (.trace x.raw x.given x.schemaLog x.program)).run u).run
        tree = ((.ok (exitCode x.result), x.transcript u), tree) := x.run_trace
  unfold run
  rw [x.read_args]
  simp only [run_bind_of_eq x.read_variables, x.context_eq, run_bind_of_eq (hrest _)]
  rfl

/-- The exit code is 0 for a result without errors, and 1 for any other. -/
theorem SuccessfulTrace.exitCode_eq_zero_iff : exitCode x.result = 0 ↔ x.result.errorCount = 0 := by
  have hpassed : x.result.allPassed = true ↔ ∀ p ∈ x.result.verdicts, p.2 = true :=
    List.all_eq_true
  rw [← all_passed_iff x.run_eq, ← hpassed, exitCode]
  split
  · rename_i h
    exact iff_of_true rfl h
  · rename_i h
    exact iff_of_false (by decide) h

end

/-- A trace on the command line that succeeds ends with the exit code 0 when its result has no
error, and with 1 when it has one: it has none exactly when all validators passed. So it is in the
summary of every run in a store that was built up from results, as all actions do. -/
theorem exitCode_of_successfulTrace :
    (∀ (directory : Path) (environment : List (String × String)) (args : List String)
      (tree : FileTree) (x : SuccessfulTrace directory environment args tree),
      ∃ code t, (run (treeHost directory) environment args).run tree =
          (.finished code t, tree) ∧
        t.output = (resultJson x.result).pretty ++ "\n" ∧
        (code = 0 ∨ code = 1) ∧ (code = 0 ↔ x.result.errorCount = 0) ∧
        (x.result.errorCount = 0 ↔ ∀ p ∈ x.result.verdicts, p.2 = true)) ∧
    (∀ s : RunStore, s.Built → ∀ m ∈ s.summaries,
      (m.errors = 0 ↔ ∀ p ∈ m.verdicts, p.2 = true)) ∧
    ∀ t as, (RunStore.after t as).Built := by
  refine ⟨fun directory environment args tree x => ?_, fun s hs m hm => hs.errors_eq_zero_iff hm,
    RunStore.built_after⟩
  refine ⟨exitCode x.result, _, x.run_args, ?_, ?_, x.exitCode_eq_zero_iff,
    (all_passed_iff x.run_eq).symm⟩
  · exact String.empty_append
  · unfold exitCode
    split
    · exact Or.inl rfl
    · exact Or.inr rfl

/-- A raw output, and a schema log with a finding on it. -/
def logTree : FileTree :=
  ⟨⟨"/", []⟩, [(["raw"], "<a/>".toList.map Char.toNat),
    (["log"], "raw:1: parser error : x".toList.map Char.toNat)]⟩

/-- The trace of the raw output with the log succeeds. -/
def logTrace :
    SuccessfulTrace ⟨"/", []⟩ [] ["trace", "raw", "--xmllint", "log"] logTree where
  sentinel := none
  raw := .ofText "raw"
  given := []
  schemaLog := some (.value (.ofText "log"))
  program := none
  variableText := none
  ctx := ⟨⟨"INFO", Marker.defaultSentinel, none, Report.defaultLimit, "localhost", 8000, none, 1800,
    60, false⟩, [], 20⟩
  output := "<a/>"
  assertions := []
  log := [⟨.xsd, .xmllint, "raw:1: parser error : x"⟩]
  stylesheet := none
  tracer := .default
  result := _
  read_args := rfl
  read_variables := rfl
  context_eq := rfl
  read_output := fun _ => rfl
  read_reports := fun _ => rfl
  read_log := fun _ => rfl
  read_program := fun _ => rfl
  read_tracer := fun _ => rfl
  run_eq := rfl

/-- A store in which the result of the trace is recorded. -/
def logStore : RunStore := .record .empty ⟨"1", "a.xml", logTrace.result, 0⟩

/-- The trace with the log ends with the exit code 1, and in the store a validator failed in it. -/
theorem exitCode_of_successfulTrace_logTrace :
    (∃ t, (run (treeHost ⟨"/", []⟩) [] ["trace", "raw", "--xmllint", "log"]).run logTree =
      (.finished 1 t, logTree)) ∧
    logStore.Built ∧
    ∀ m ∈ logStore.summaries, m.errors = 1 ∧ ¬ ∀ p ∈ m.verdicts, p.2 = true := by
  obtain ⟨htrace, hstore, -⟩ := exitCode_of_successfulTrace
  obtain ⟨code, t, hrun, -, hcode, hzero, -⟩ := htrace _ _ _ _ logTrace
  have herrors : logTrace.result.errorCount = 1 := rfl
  have hbuilt : logStore.Built := RunStore.Built.empty.record logTrace.run_eq "1" "a.xml" 0
  have hone : code = 1 := by
    refine hcode.resolve_left fun h => ?_
    rw [hzero.mp h] at herrors
    exact absurd herrors (by decide)
  refine ⟨⟨t, hone ▸ hrun⟩, hbuilt, fun m hm => ?_⟩
  obtain rfl : m = RunRecord.summary ⟨"1", "a.xml", logTrace.result, 0⟩ := List.mem_singleton.mp hm
  refine ⟨herrors, fun hall => ?_⟩
  have hnone := (hstore logStore hbuilt _ hm).mpr hall
  exact absurd (hnone.symm.trans herrors) (by decide)

end StylesheetTrace.Command
