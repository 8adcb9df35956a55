import Mathlib.Data.Bool.AllAny
import StylesheetTrace.Proofs.Entity.Reference
import StylesheetTrace.Proofs.Output.Split
import StylesheetTrace.Proofs.Stylesheet.Scan

/-!
# Instrumenting and splitting

Of an instrumented stylesheet each inserted line writes its marker as a comment when it is
performed. The text in which the inserted lines are replaced by what they write, and all other lines
stand as they are, is split into the lines of the stylesheet and one entry for each marker: the line
of the entry in the clean output is that of the marker in the stylesheet (`split_performed`). The
proof relates the lines written for one line of the stylesheet to the raw lines that the split reads
(`performGroup_writtenGroup`), and then counts along the lines.
-/

namespace StylesheetTrace.Stylesheet

open StylesheetTrace.Text StylesheetTrace.Markup StylesheetTrace.Output

/-! ## Performing the inserted lines -/

/-- What an inserted line writes: a comment with the text of its instruction, behind the same
blanks. -/
def performed (xsl line : List Char) : List Char :=
  let tag := xsl ++ ":comment".toList
  match (after? ('<' :: (tag ++ ['>'])) (line.dropWhile isBlank)).bind (body? tag) with
  | some (text, _) =>
    line.takeWhile isBlank ++ ("<!--".toList ++ (Entity.unescapeXml text ++ commentEnd))
  | none => line

/-- The lines that stand for one line of the stylesheet, with the inserted one performed. -/
def performGroup (xsl : List Char) : List (List Char) → List (List Char)
  | [inserted, line] => [performed xsl inserted, line]
  | group => group

/-- The lines of a stylesheet, each with the literal element before which a marker goes. -/
def scanned (content : List Char) : List (List Char × Option Literal) :=
  scanLines (instructionPrefix content) (lines content)

/-- The lines of the instrumented stylesheet, grouped by the lines of the stylesheet for which they
stand. -/
def instrumentGroups (sentinel file : String) (content : List Char) :
    Except Marker.EncodeError (List (List (List Char))) :=
  ((scanned content).zipIdx 1).mapM fun (s, n) =>
    instrumentLine (instructionPrefix content) sentinel file n s

/-- The lines of the instrumented stylesheet are those of the groups. -/
theorem instrumentLines_eq (sentinel file : String) (content : List Char) :
    instrumentLines sentinel file content =
      (instrumentGroups sentinel file content).map List.flatten := rfl

/-- The marker that an inserted line writes. -/
theorem performed_markerLine (xsl : List Char) {mark : Literal} (text : String)
    (hindent : ∀ c ∈ mark.indent, isBlank c = true) :
    performed xsl (markerLine xsl mark text) =
      mark.indent ++ ("<!--".toList ++ (text.toList ++ commentEnd)) := by
  have hline : markerLine xsl mark text =
      mark.indent ++ '<' :: ((xsl ++ ":comment".toList ++ ['>']) ++
        (Entity.escape text.toList ++ '<' :: '/' :: (xsl ++ ":comment".toList ++ ['>']))) := by
    simp [markerLine]
  have hhead : ∀ t, ∀ c ∈ ('<' :: t).head?, isBlank c = false :=
    head?_cons_eq_false (by decide)
  have hbody : body? (xsl ++ ":comment".toList) (Entity.escape text.toList ++
      '<' :: '/' :: (xsl ++ ":comment".toList ++ ['>'])) = some (Entity.escape text.toList, []) :=
    body?_append (silent_exactClosing_of_not_mem (Entity.not_mem_escape text.toList).1 _ _)
  rw [performed, hline, dropWhile_append_of_head (hhead _), takeWhile_append_of_head (hhead _),
    List.dropWhile_eq_nil_iff.mpr hindent, List.takeWhile_eq_self_iff.mpr hindent, List.nil_append,
    after?_cons_cons, after?_append]
  -- The escaped text is the body of the instruction, and is read back by the XML entities alone.
  simp only [Option.bind_some, hbody, Entity.unescapeXml_escape]

/-! ## Groups -/

/-- The text of the marker before an element on line `n`. -/
def markerText (sentinel file : String) (n : Nat) (mark : Literal) : String :=
  "|".intercalate [sentinel, file, toString (n : Int), String.ofList mark.name]

/-- The lines written for line `n` of the stylesheet. -/
def writtenGroup (xsl : List Char) (sentinel file : String) (n : Nat) :
    List Char × Option Literal → List (List Char)
  | (line, none) => [line]
  | (line, some mark) => [markerLine xsl mark (markerText sentinel file n mark), line]

/-- Line `n` of the stylesheet with the marker that its inserted line writes. -/
def markedLine (file : String) (n : Nat) (s : List Char × Option Literal) : MarkedLine :=
  ⟨s.2.map fun mark => (⟨mark.indent, file.toList, n⟩, mark.name), s.1⟩

/-- A marker is written for every literal element of a stylesheet without delimiters in its path. -/
theorem instrumentLine_eq_ok (xsl : List Char) (sentinel : String) {file : String}
    (hfile : '|' ∉ file.toList) (n : Nat) {s : List Char × Option Literal}
    (hs : ∀ mark ∈ s.2, '|' ∉ mark.name) :
    instrumentLine xsl sentinel file n s = .ok (writtenGroup xsl sentinel file n s) := by
  obtain ⟨line, mark⟩ := s
  cases mark with
  | none => rfl
  | some mark =>
    have hname : '|' ∉ mark.name := hs mark rfl
    have htext : Marker.text sentinel file n (String.ofList mark.name) =
        .ok (markerText sentinel file n mark) := by
      unfold Marker.text Marker.check Marker.delimiter
      rw [if_neg (by simpa using hfile), if_neg (by simpa using hname)]
      rfl
    rw [instrumentLine]
    simp only [htext]
    rfl

/-- The fields of a marker, character by character. -/
theorem toList_markerText (sentinel file : String) (n : Nat) (mark : Literal) :
    (markerText sentinel file n mark).toList =
      sentinel.toList ++ '|' :: (file.toList ++ '|' :: (decimal n ++ '|' :: mark.name)) := by
  have hline : (toString (n : Int)).toList = decimal n := rfl
  rw [markerText, String.toList_intercalate, List.map_cons, List.map_cons, List.map_cons, hline]
  simp

/-- Performing the lines written for a line of the stylesheet gives its raw lines. -/
theorem performGroup_writtenGroup (xsl : List Char) (sentinel file : String) (n : Nat)
    {s : List Char × Option Literal} (hs : ∀ mark ∈ s.2, ∀ c ∈ mark.indent, isBlank c = true) :
    performGroup xsl (writtenGroup xsl sentinel file n s) =
      (markedLine file n s).raw.map (RawLine.chars sentinel.toList) := by
  obtain ⟨line, mark⟩ := s
  cases mark with
  | none => rfl
  | some mark =>
    rw [writtenGroup, performGroup, performed_markerLine xsl _ (hs mark rfl), toList_markerText]
    simp [markedLine, MarkedLine.raw, RawLine.chars, markerStart, Stamp.fields]

/-- The numbers of the lines of the stylesheet before which a line is inserted, where the first
group stands for line `i`. -/
def markedFrom (i : Nat) (groups : List (List (List Char))) : List Nat :=
  (groups.zipIdx i).filterMap fun p => if p.1.length = 2 then some p.2 else none

/-- The lines of a stylesheet with the markers that its inserted lines write. -/
def markedLines (file : String) (i : Nat) (ss : List (List Char × Option Literal)) :
    List MarkedLine :=
  (ss.zipIdx i).map fun p => markedLine file p.2 p.1

/-- The marked lines are those of the stylesheet. -/
theorem map_line_markedLines (file : String) (i : Nat) (ss : List (List Char × Option Literal)) :
    (markedLines file i ss).map MarkedLine.line = ss.map Prod.fst := by
  unfold markedLines
  rw [List.map_map]
  conv_rhs => rw [← List.zipIdx_map_fst i ss, List.map_map]
  rfl

/-- The entries of the marked lines are on the lines before which a line is inserted. -/
theorem map_outputLine_entriesOf (xsl : List Char) (sentinel file : String)
    (ss : List (List Char × Option Literal)) (i : Nat) :
    (entriesOf i (markedLines file i ss)).map TraceEntry.outputLine =
      markedFrom i ((ss.zipIdx i).map fun p => writtenGroup xsl sentinel file p.2 p.1) := by
  unfold entriesOf markedLines markedFrom
  induction ss generalizing i with
  | nil => rfl
  | cons s ss ih =>
    obtain ⟨line, mark⟩ := s
    cases mark with
    | none => exact ih (i + 1)
    | some mark => exact congrArg (i :: ·) (ih (i + 1))

/-! ## The stylesheet as a whole -/

section

variable {sentinel file : String} {content : List Char}

/-- No delimiter stands in the name of a literal element that the scan finds. -/
theorem delimiter_not_mem_name {s : List Char × Option Literal} (hs : s ∈ scanned content) :
    ∀ mark ∈ s.2, '|' ∉ mark.name := by
  intro mark hmark h
  obtain ⟨-, hname, -⟩ := literal_of_mem_scanLines hs hmark
  exact (hname _ h).ne (by decide) (by decide) (by decide) rfl

/-- Instrumenting a stylesheet writes the groups of its lines. -/
theorem instrumentGroups_eq_ok (sentinel : String) (hfile : '|' ∉ file.toList) :
    instrumentGroups sentinel file content = .ok (((scanned content).zipIdx 1).map fun p =>
      writtenGroup (instructionPrefix content) sentinel file p.2 p.1) :=
  mapM_eq_ok fun p hp => instrumentLine_eq_ok _ sentinel hfile p.2
    (delimiter_not_mem_name (List.fst_mem_of_mem_zipIdx hp))

/-- Performing the groups gives the raw lines of the marked lines. -/
theorem flatMap_performGroup (sentinel file : String) (content : List Char) :
    (((scanned content).zipIdx 1).map fun p =>
      writtenGroup (instructionPrefix content) sentinel file p.2 p.1).flatMap
        (performGroup (instructionPrefix content)) =
      ((markedLines file 1 (scanned content)).flatMap MarkedLine.raw).map
        (RawLine.chars sentinel.toList) := by
  unfold markedLines
  rw [List.flatMap_map, List.map_flatMap, List.flatMap_map]
  refine List.flatMap_congr fun p hp => performGroup_writtenGroup _ sentinel file p.2 ?_
  intro mark hm c hc
  rw [(literal_of_mem_scanLines (List.fst_mem_of_mem_zipIdx hp) hm).1] at hc
  exact List.mem_takeWhile_imp hc

/-- The marked lines of a stylesheet without markers of its own can be split. -/
theorem sound_markedLines (hreturns : ReturnsPaired content)
    (hfree : ¬ markerStart sentinel.toList <:+: content)
    (hfile : ∀ c ∈ file.toList, c ≠ '|' ∧ c ≠ '\n') (hopen : ¬ commentEnd <:+: file.toList)
    (hlong : (lines content).length < 10 ^ TooLong.limit) :
    ∀ m ∈ markedLines file 1 (scanned content), m.Sound sentinel.toList := by
  have hscan : (scanned content).map Prod.fst = lines content := map_fst_scanLines _ _
  intro m hm
  obtain ⟨⟨⟨line, mark⟩, n⟩, hp, rfl⟩ := List.mem_map.mp hm
  have hmem := List.fst_mem_of_mem_zipIdx hp
  have hline : line ∈ lines content := hscan ▸ List.mem_map_of_mem (f := Prod.fst) hmem
  obtain ⟨hstretch, hfeed⟩ := infix_of_mem_lines hline
  -- The line itself is kept: it holds no marker, and no return at its end.
  have hcontent : (RawLine.content line).Sound sentinel.toList := by
    refine ⟨hfeed, fun h => ?_, fun h => hfree (h.trans hstretch)⟩
    exact not_mem_of_mem_lines hreturns hline (List.mem_of_getLast? h)
  cases mark with
  | none => simpa [MarkedLine.Sound, markedLine, MarkedLine.raw] using hcontent
  | some mark =>
    obtain ⟨hindent, hname, -⟩ := literal_of_mem_scanLines hmem rfl
    have hne : ∀ d, isNameStart d = false → isLiteralChar d = false → d ≠ ':' → d ∉ mark.name :=
      fun d hstart hchar hcolon h => (hname d h).ne hstart hchar hcolon rfl
    have hlen : (scanned content).length = (lines content).length := by
      rw [← hscan, List.length_map]
    -- The marker can be read back: its blanks are those of the line, its number is not too long.
    have hstamp : Stamp.Sound ⟨mark.indent, file.toList, n⟩ := by
      refine ⟨fun c hc => ?_, hfile, hopen, List.le_snd_of_mem_zipIdx hp, ?_⟩
      · rw [hindent] at hc
        refine ⟨List.mem_takeWhile_imp hc, ?_⟩
        rintro rfl
        exact hfeed ((List.takeWhile_prefix isBlank).subset hc)
      · have hlt := List.snd_lt_add_of_mem_zipIdx hp
        dsimp only at hlt ⊢
        omega
    have hmarker : (RawLine.marker ⟨mark.indent, file.toList, n⟩ mark.name).Sound sentinel.toList :=
      ⟨hstamp, hne '\n' (by decide) (by decide) (by decide),
        fun h => hne '>' (by decide) (by decide) (by decide) (h.subset (by decide))⟩
    simpa [MarkedLine.Sound, markedLine, MarkedLine.raw] using ⟨hmarker, hcontent⟩

/-- The entry of a marked line of a stylesheet has the file, the number of the line and the element
that the line opens. -/
theorem entry_of_markedLines {e : TraceEntry}
    (h : e ∈ entriesOf 1 (markedLines file 1 (scanned content))) :
    e.origin.file = file ∧ e.origin.line = e.outputLine ∧
      ∃ line, (lines content)[e.outputLine - 1]? = some line ∧
        Opens line e.origin.element.toList := by
  have hscan : (scanned content).map Prod.fst = lines content := map_fst_scanLines _ _
  -- The entry is that of the marked line whose number it has.
  obtain ⟨hle, m, hget, hentry⟩ := mem_entriesOf.mp h
  rw [markedLines, List.getElem?_map, List.getElem?_zipIdx, Option.map_map] at hget
  obtain ⟨s, hs, rfl⟩ := Option.map_eq_some_iff.mp hget
  rw [Function.comp_apply, Nat.add_sub_cancel' hle, MarkedLine.entryAt?, markedLine,
    Option.map_map] at hentry
  obtain ⟨mark, hmark, hentry⟩ := Option.map_eq_some_iff.mp hentry
  obtain ⟨-, -, hopens⟩ := literal_of_mem_scanLines (List.mem_of_getElem? hs) hmark
  have hline : (lines content)[e.outputLine - 1]? = some s.1 := by
    rw [← hscan, List.getElem?_map, hs]
    rfl
  have horigin : ⟨file, e.outputLine, String.ofList mark.name⟩ = e.origin := by
    have h := congrArg TraceEntry.origin hentry
    rwa [Function.comp_apply, Stamp.origin, String.ofList_toList] at h
  rw [← horigin]
  exact ⟨rfl, rfl, s.1, hline, by rwa [String.toList_ofList]⟩

end

/-- A stylesheet without markers of its own and without lone carriage returns is recovered from its
instrumented form when the inserted lines are performed: the lines that are kept are its own, and
each inserted line has an entry, with the file, the line and the element that the line opens, which
counts from the same line. The numbers of the lines stay within the limit on digits, above which
none is read. -/
theorem split_performed {sentinel file content : String} (hreturns : ReturnsPaired content.toList)
    (hfree : occurs (markerStart sentinel.toList) content.toList = false)
    (hsentinel : '\n' ∉ sentinel.toList) (hfile : ∀ c ∈ file.toList, c ≠ '|' ∧ c ≠ '\n')
    (hopen : occurs commentEnd file.toList = false)
    (hlong : (lines content.toList).length < 10 ^ TooLong.limit) :
    ∃ groups entries,
      instrumentGroups sentinel file content.toList = .ok groups ∧
      instrument sentinel file content = .ok (joinLines (groups.flatten.map String.ofList)) ∧
      split sentinel (joinLines ((groups.flatMap
        (performGroup (instructionPrefix content.toList))).map String.ofList)) =
          .ok ⟨linesOf content, entries⟩ ∧
      entries.map TraceEntry.outputLine = markedFrom 1 groups ∧
      (∀ e ∈ entries, e.origin.file = file ∧ e.origin.line = e.outputLine ∧
        ∃ line, (lines content.toList)[e.outputLine - 1]? = some line ∧
          Opens line e.origin.element.toList) ∧
      entries.Pairwise fun d e => d.outputLine < e.outputLine := by
  rw [occurs_eq_false] at hfree hopen
  have hgroups := @instrumentGroups_eq_ok file content.toList sentinel
    fun h => (hfile _ h).1 rfl
  have hsound := sound_markedLines hreturns hfree hfile hopen hlong
  have hlines : (markedLines file 1 (scanned content.toList)).map MarkedLine.line =
      lines content.toList := by
    rw [map_line_markedLines]
    exact map_fst_scanLines _ _
  have hne : markedLines file 1 (scanned content.toList) ≠ [] := fun h =>
    lines_ne_nil content.toList (by rw [← hlines, h, List.map_nil])
  have hkept : (markedLines file 1 (scanned content.toList)).map (fun m => String.ofList m.line) =
      linesOf content := by
    rw [linesOf, ← hlines, List.map_map]
    rfl
  -- The text that is written, what the split reads in it, and where the entries are.
  refine ⟨_, entriesOf 1 (markedLines file 1 (scanned content.toList)), hgroups, ?_, ?_, ?_,
    fun e => entry_of_markedLines, pairwise_entriesOf _ 1⟩
  · rw [instrument, instrumentLines_eq, hgroups]
    rfl
  · have hsplit := split_markedText hsentinel hsound hne
    rw [markedText, rawText, hkept] at hsplit
    rw [flatMap_performGroup, List.map_map]
    exact hsplit
  · exact map_outputLine_entriesOf _ sentinel file _ 1

/-- A stylesheet that writes an element with text, of a path that has to be escaped. -/
def sampleStylesheet : String :=
  "<xsl:template match='/'>\n  <a:b id='1'>\n  </a:b>\n</xsl:template>"

/-- The marker of the sample, written before the second line, is recovered there. -/
theorem split_performed_sample :
    ∃ groups entries,
      instrumentGroups "TRACE" "a&b.xsl" sampleStylesheet.toList = .ok groups ∧
      split "TRACE" (joinLines ((groups.flatMap
        (performGroup (instructionPrefix sampleStylesheet.toList))).map String.ofList)) =
          .ok ⟨linesOf sampleStylesheet, entries⟩ ∧
      entries.map TraceEntry.outputLine = [2] := by
  have hreturns : ReturnsPaired sampleStylesheet.toList := by
    intro t u h
    have hmem : '\r' ∈ sampleStylesheet.toList := h ▸ List.mem_append_right t List.mem_cons_self
    exact absurd hmem (by decide)
  obtain ⟨groups, entries, hgroups, -, hsplit, hnumbers, -⟩ :=
    @split_performed "TRACE" "a&b.xsl" sampleStylesheet hreturns (by decide +kernel) (by decide)
      (List.all_iff_forall_prop.mp (by decide)) (by decide) (by decide +kernel)
  have hmarked : (instrumentGroups "TRACE" "a&b.xsl" sampleStylesheet.toList).map (markedFrom 1) =
      .ok [2] := by rfl
  rw [hgroups] at hmarked
  exact ⟨groups, entries, hgroups, hsplit, hnumbers.trans (Except.ok.inj hmarked)⟩

end StylesheetTrace.Stylesheet
