import StylesheetTrace.Proofs.Command.ExitCode

/-!
# Work on a tree of files

What work comes to on a tree of files, apart from what it notes and prints: a result with the tree
that it leaves, or a failure that is reported or one that breaks the program off (`Ends`). Work that
is done step by step comes to what its steps come to (`Ends.bind`). What reading and writing come to
is told from the paths that are given and the bytes of the files (`textOf`, `written`).
-/

namespace StylesheetTrace.Command

open StylesheetTrace.Text

/-- What a failure leads to: it is reported and the program ends with the exit code 2, or the
program is broken off. -/
inductive FailureKind where
  | reported
  | breaking
  deriving Repr, DecidableEq

/-- What the failure leads to. -/
def Failure.kind (f : Failure) : FailureKind := if f.isReported then .reported else .breaking

variable {α β : Type} {tree : FileTree} {directory : Path} {ctx : Context}

/-! ## Step by step -/

/-- On a tree the work comes to a result and a tree, or to a failure of a kind. -/
def Ends (tree : FileTree) (w : Work (StateM FileTree) α)
    (r : Except FailureKind (α × FileTree)) : Prop :=
  ∀ t : Transcript, ∃ x t' tree', (w.run t).run tree = ((x, t'), tree') ∧
    (x.map fun a => (a, tree')).mapError Failure.kind = r

/-- The work comes to a result or to a failure of a kind, and leaves the tree as it is. -/
def Gives (tree : FileTree) (w : Work (StateM FileTree) α) (r : Except FailureKind α) : Prop :=
  Ends tree w (r.map fun a => (a, tree))

/-- The work writes to files, and comes to a tree or to a failure of a kind. -/
def Writes (tree : FileTree) (w : Work (StateM FileTree) Unit) (r : Except FailureKind FileTree) :
    Prop :=
  Ends tree w (r >>= fun tree' => .ok ((), tree'))

/-- Work behind other work starts on the tree that this leaves, unless this fails. -/
theorem Ends.bind {w : Work (StateM FileTree) α} {f : α → Work (StateM FileTree) β}
    {r : Except FailureKind (α × FileTree)}
    {g : α × FileTree → Except FailureKind (β × FileTree)} (hw : Ends tree w r)
    (hf : ∀ p, r = .ok p → Ends p.2 (f p.1) (g p)) : Ends tree (w >>= f) (r >>= g) := by
  intro t
  obtain ⟨x, t', tree', hrun, rfl⟩ := hw t
  have hbind : ((w >>= f).run t).run tree = (ExceptT.bindCont f x t').run tree' := by
    show (w.run t >>= fun p => ExceptT.bindCont f p.1 p.2).run tree = _
    rw [run_bind_of_eq hrun]
  cases x with
  | error e => exact ⟨.error e, t', tree', hbind, rfl⟩
  | ok a =>
    obtain ⟨y, t'', tree'', hrun', heq⟩ := hf (a, tree') rfl t'
    exact ⟨y, t'', tree'', hbind.trans hrun', heq⟩

/-- Work behind other work that leaves the tree as it is. -/
theorem Gives.bind_ends {w : Work (StateM FileTree) α} {f : α → Work (StateM FileTree) β}
    {r : Except FailureKind α} {g : α → Except FailureKind (β × FileTree)} (hw : Gives tree w r)
    (hf : ∀ a, Ends tree (f a) (g a)) : Ends tree (w >>= f) (r >>= g) := by
  have hbind : Ends tree (w >>= f) ((r.map fun a => (a, tree)) >>= fun p => g p.1) := by
    refine Ends.bind hw fun p hp => ?_
    obtain ⟨a, -, rfl⟩ := map_eq_ok.mp hp
    exact hf a
  cases r with
  | error k => exact hbind
  | ok a => exact hbind

/-- Work that leaves the tree as it is behind other such work. -/
theorem Gives.bind {w : Work (StateM FileTree) α} {f : α → Work (StateM FileTree) β}
    {r : Except FailureKind α} {g : α → Except FailureKind β} (hw : Gives tree w r)
    (hf : ∀ a, Gives tree (f a) (g a)) : Gives tree (w >>= f) (r >>= g) := by
  have hbind := hw.bind_ends hf
  cases r with
  | error k => exact hbind
  | ok a => exact hbind

/-- Work that writes behind which other work starts on the tree that was written. -/
theorem Writes.bind {w : Work (StateM FileTree) Unit} {f : Unit → Work (StateM FileTree) β}
    {r : Except FailureKind FileTree} {g : FileTree → Except FailureKind (β × FileTree)}
    (hw : Writes tree w r) (hf : ∀ tree', Ends tree' (f ()) (g tree')) :
    Ends tree (w >>= f) (r >>= g) := by
  have hbind := Ends.bind hw fun p _ => hf p.2
  rw [bind_assoc] at hbind
  exact hbind

/-- A result without any work. -/
theorem gives_pure (a : α) : Gives tree (pure a) (.ok a) :=
  fun t => ⟨.ok a, t, tree, rfl, rfl⟩

/-- A failure without any work. -/
theorem gives_throw (f : Failure) :
    Gives tree (throw f : Work (StateM FileTree) α) (.error f.kind) :=
  fun t => ⟨.error f, t, tree, rfl, rfl⟩

/-- What a pure function comes to. -/
theorem gives_attempt {ε : Type} (f : ε → Failure) (x : Except ε α) :
    Gives tree (attempt f x) (x.mapError fun e => (f e).kind) := by
  cases x with
  | error e => exact gives_throw (f e)
  | ok a => exact gives_pure a

/-- What a host does to the tree. -/
theorem ends_lift {m : StateM FileTree α} {a : α} {tree' : FileTree}
    (h : m.run tree = (a, tree')) : Ends tree (liftM m) (.ok (a, tree')) := by
  refine fun t => ⟨.ok a, t, tree', ?_, rfl⟩
  show (m >>= fun a => pure (Except.ok a, t)).run tree = _
  rw [run_bind_of_eq h]
  rfl

/-- What is noted does not matter. -/
theorem gives_note (rs : List LogRecord) : Gives tree (note rs) (.ok ()) :=
  fun t => ⟨.ok (), { t with log := t.log ++ rs }, tree, rfl, rfl⟩

/-- What is printed does not matter. -/
theorem gives_print (s : String) : Gives tree (print s) (.ok ()) :=
  fun t => ⟨.ok (), { t with output := t.output ++ s }, tree, rfl, rfl⟩

/-- What is done with a result. -/
theorem Gives.map {w : Work (StateM FileTree) α} {r : Except FailureKind α} (hw : Gives tree w r)
    (f : α → β) : Gives tree (f <$> w) (r.map f) := by
  rw [← bind_pure_comp]
  exact hw.bind fun a => gives_pure (f a)

/-- Work on a list item by item. -/
theorem gives_mapM {f : α → Work (StateM FileTree) β} {g : α → Except FailureKind β}
    (h : ∀ a, Gives tree (f a) (g a)) (l : List α) : Gives tree (l.mapM f) (l.mapM g) := by
  induction l with
  | nil => exact gives_pure []
  | cons a l ih =>
    rw [List.mapM_cons, List.mapM_cons]
    exact (h a).bind fun b => ih.bind fun bs => gives_pure (b :: bs)

/-! ## Reading -/

/-- A path with the null character breaks the program off before a file is opened. -/
def checked (p : Path) : Except FailureKind Unit :=
  if '\x00' ∈ p.text.toList then .error .breaking else .ok ()

/-- The text of a file that is to be read: a file that can not be opened is reported, and the
program is broken off where no file is given and where the bytes of the file encode no text. -/
def textOf (tree : FileTree) : Given Path → Except FailureKind String
  | .nothing => .error .breaking
  | .value p => do
    checked p
    let bytes ← (tree.read p).mapError fun _ => .reported
    let s ← (Utf8.decode bytes).mapError fun _ => .breaking
    pure (String.ofList (normalizeLineEnds s))

/-- The text of a file, if one is named. -/
def textOf? (tree : FileTree) : Option Path → Except FailureKind (Option String)
  | none => .ok none
  | some p => (textOf tree (.value p)).map some

/-- A report that is to be read: its validator, its format and its file. -/
abbrev ReportFile := Source × ReportKind × Path

/-- The report that a file holds. -/
def reportOf (tree : FileTree) : Given ReportFile → Except FailureKind ValidatorReport
  | .nothing => .error .breaking
  | .value (source, kind, p) =>
    (textOf tree (.value p)).map fun text => ⟨source, kind, text⟩

/-- The reports that are given for the options of a trace. -/
def reportFiles (reports : List (Given (Source × Path))) (schemaLog : Option (Given Path)) :
    List (Given ReportFile) :=
  (reports.map fun g => g.map fun (source, p) => (source, .svrl, p)) ++
    schemaLog.toList.map fun g => g.map fun p => (.xsd, .xmllint, p)

/-- A path is checked. -/
theorem gives_checkPath (p : Path) : Gives tree (checkPath p) (checked p) := by
  unfold checkPath checked
  by_cases hnull : '\x00' ∈ p.text.toList
  · rw [if_pos hnull, if_pos (List.contains_iff_mem.mpr hnull)]
    exact gives_throw .nullByte
  · rw [if_neg hnull, if_neg fun h => hnull (List.contains_iff_mem.mp h)]
    exact gives_pure ()

/-- A file is read as a text. -/
theorem gives_readText (p : Path) :
    Gives tree (readText (treeHost directory) p) (textOf tree (.value p)) :=
  have hread : Gives tree (liftM ((treeHost directory).read p)) (.ok (tree.read p)) := ends_lift rfl
  (gives_checkPath p).bind fun _ => hread.bind fun _ => (gives_attempt .file _).bind fun _ =>
    (gives_attempt .encoding _).bind fun _ => gives_pure _

/-- A file is read as a text, if one is named. -/
theorem gives_readText? (p : Option Path) :
    Gives tree (readText? (treeHost directory) p) (textOf? tree p) := by
  cases p with
  | none => exact gives_pure none
  | some p => exact (gives_readText p).map some

/-- The reports for the options of a trace are read in order. -/
theorem gives_reports (reports : List (Given (Source × Path))) (schemaLog : Option (Given Path)) :
    Gives tree (do
      let assertions ← reports.mapM (readReport (treeHost directory))
      pure (assertions ++ (← readLog (treeHost directory) schemaLog)))
      ((reportFiles reports schemaLog).mapM (reportOf tree)) := by
  have hreport : ∀ g : Given (Source × Path), Gives tree (readReport (treeHost directory) g)
      (reportOf tree (g.map fun (source, p) => (source, .svrl, p))) := by
    rintro (⟨source, p⟩ | _)
    · exact (gives_readText p).map _
    · exact gives_throw .noReport
  have hlog : Gives tree (readLog (treeHost directory) schemaLog)
      ((schemaLog.toList.map fun g => g.map fun p => (.xsd, .xmllint, p)).mapM
        (reportOf tree)) := by
    match schemaLog with
    | none => exact gives_pure []
    | some .nothing => exact gives_throw (.noFile "read_text")
    | some (.value p) =>
      have hone : [Given.value (Source.xsd, ReportKind.xmllint, p)].mapM (reportOf tree) =
          textOf tree (.value p) >>= fun text => .ok [⟨.xsd, .xmllint, text⟩] := by
        rw [List.mapM_cons, reportOf]
        cases textOf tree (.value p) <;> rfl
      rw [Option.toList_some, List.map_singleton]
      exact hone ▸ (gives_readText p).bind fun text => gives_pure _
  rw [reportFiles, List.mapM_append, List.mapM_map]
  exact (gives_mapM hreport reports).bind fun as => hlog.bind fun ls => gives_pure (as ++ ls)

/-! ## Writing -/

/-- The tree with a text written to a file: a file that can not be opened is reported, and the
program is broken off where no file is given. -/
def written (tree : FileTree) : Given Path × String → Except FailureKind FileTree
  | (.nothing, _) => .error .breaking
  | (.value p, s) => do
    checked p
    (tree.write p (Utf8.encode s)).mapError fun _ => .reported

/-- The tree with texts written to files in order. -/
def writtenAll (tree : FileTree) (outs : List (Given Path × String)) :
    Except FailureKind FileTree :=
  outs.foldlM written tree

/-- What a host writes changes the tree, unless the file can not be opened. -/
theorem run_write (p : Path) (bytes : List Nat) :
    ((treeHost directory).write p bytes).run tree =
      match tree.write p bytes with
      | .ok tree' => (.ok (), tree')
      | .error e => (.error e, tree) := by
  show (match tree.write p bytes with
    | Except.ok tree' => (do set tree'; return .ok () : StateM FileTree (Except FileError Unit))
    | Except.error e => return .error e).run tree = _
  cases tree.write p bytes <;> rfl

/-- A text is written to a file. -/
theorem writes_writeText (p : Path) (s : String) :
    Writes tree (writeText (treeHost directory) p s) (written tree (.value p, s)) := by
  rw [Writes, written, bind_assoc]
  refine (gives_checkPath p).bind_ends fun _ => ?_
  have hrun := @run_write tree directory p (Utf8.encode s)
  cases hwrite : tree.write p (Utf8.encode s) with
  | error e =>
    rw [hwrite] at hrun
    exact (ends_lift hrun).bind fun _ _ => gives_attempt .file _
  | ok tree' =>
    rw [hwrite] at hrun
    exact (ends_lift hrun).bind fun _ _ => gives_attempt .file _

/-- A text is written to a file that is given for an option. -/
theorem writes_writeGiven (x : Given Path) (s : String) (wrote : Path → List LogRecord) :
    Writes tree (writeGiven (treeHost directory) x s wrote) (written tree (x, s)) := by
  cases x with
  | nothing => exact gives_throw (.noFile "write_text")
  | value p => exact (writes_writeText p s).bind fun _ => gives_note (wrote p)

/-- A text is written to a file, or to the standard output. -/
theorem writes_emit (output : Option (Given Path)) (s : String) :
    Writes tree (emit (treeHost directory) ctx output s)
      (writtenAll tree (output.toList.map fun x => (x, s))) := by
  cases output with
  | none => exact gives_print (withLineEnd s)
  | some x =>
    have hone : writtenAll tree [(x, s)] = written tree (x, s) := bind_pure _
    rw [Option.toList_some, List.map_singleton, hone]
    exact writes_writeGiven x s _

end StylesheetTrace.Command
