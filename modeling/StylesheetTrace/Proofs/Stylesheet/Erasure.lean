import StylesheetTrace.Proofs.Stylesheet.Nesting

/-!
# Instrumenting only inserts

An instrumented stylesheet holds the lines of the stylesheet, each as it was and in the same order,
and before some of them one line more, which writes the marker of the element that the line opens
(`instrument_inserts`). Which lines these are is decided by the stylesheet alone: it is the same for
every file and for every sentinel. A file whose path holds a delimiter is refused when there is such
a line, and otherwise changes nothing.
-/

namespace StylesheetTrace.Stylesheet

open StylesheetTrace.Text StylesheetTrace.Markup

/-! ## Rows -/

/-- A line of the stylesheet with what is inserted before it. -/
structure Row where
  /-- The line that is inserted, if one is. -/
  inserted : Option (List Char)
  /-- The line of the stylesheet. -/
  line : List Char

/-- The lines of a row in the instrumented stylesheet. -/
def Row.lines (row : Row) : List (List Char) :=
  row.inserted.toList ++ [row.line]

/-- Line `n` of the stylesheet with the marker that is written before it. -/
def markedRow (xsl : List Char) (sentinel file : String) (n : Nat)
    (s : List Char × Option Literal) : Row :=
  ⟨s.2.map fun mark => markerLine xsl mark (markerText sentinel file n mark), s.1⟩

/-- The rows of a stylesheet, which stand for its lines from line `i` on. -/
def rowsFrom (xsl : List Char) (sentinel file : String) (i : Nat)
    (ss : List (List Char × Option Literal)) : List Row :=
  (ss.zipIdx i).map fun p => markedRow xsl sentinel file p.2 p.1

/-- The rows keep the lines. -/
theorem map_line_rowsFrom (xsl : List Char) (sentinel file : String) (i : Nat)
    (ss : List (List Char × Option Literal)) :
    (rowsFrom xsl sentinel file i ss).map Row.line = ss.map Prod.fst := by
  unfold rowsFrom
  rw [List.map_map]
  conv_rhs => rw [← List.zipIdx_map_fst i ss, List.map_map]
  rfl

/-- A row is that of its line. -/
theorem getElem?_rowsFrom {xsl : List Char} {sentinel file : String} {i n : Nat}
    {ss : List (List Char × Option Literal)} {row : Row} :
    (rowsFrom xsl sentinel file i ss)[n]? = some row ↔
      ∃ s, ss[n]? = some s ∧ markedRow xsl sentinel file (i + n) s = row := by
  rw [rowsFrom, List.getElem?_map, List.getElem?_zipIdx, Option.map_map, Option.map_eq_some_iff]
  rfl

section

variable {sentinel file : String} {content : List Char}

/-! ## Refusals -/

/-- The scan finds a literal element on line `n`, counted from zero. -/
def Marked (content : List Char) (n : Nat) : Prop :=
  ∃ s, (scanned content)[n]? = some s ∧ s.2.isSome = true

/-- Before a line something is inserted exactly when the scan finds an element there, whatever the
file and the sentinel are, if only the file can be written into a marker. -/
theorem inserts_iff (hfile : '|' ∉ file.toList) {n : Nat} :
    Inserts sentinel file content n ↔ Marked content n := by
  unfold Inserts Marked
  simp only [instrumentGroups_eq_ok sentinel hfile, Except.ok.injEq, exists_and_left,
    exists_eq_left', List.getElem?_map, List.getElem?_zipIdx, Option.map_map,
    Option.map_eq_some_iff]
  constructor
  · rintro ⟨_, ⟨⟨line, mark⟩, hs, rfl⟩, hlong⟩
    cases mark with
    | none => exact absurd hlong (by simp [writtenGroup])
    | some mark => exact ⟨_, hs, rfl⟩
  · rintro ⟨⟨line, mark⟩, hs, hmark⟩
    obtain ⟨mark, rfl⟩ := Option.isSome_iff_exists.mp hmark
    exact ⟨_, ⟨_, hs, rfl⟩, by simp [writtenGroup]⟩

/-- The lines for an unmarked line are the line alone, and those for a marked one are refused when
the path of the file holds a delimiter. -/
theorem instrumentLine_of_delimiter (hfile : '|' ∈ file.toList) (xsl : List Char) (n : Nat)
    (s : List Char × Option Literal) :
    instrumentLine xsl sentinel file n s =
      if s.2.isSome then .error (.delimiter .file file) else .ok [s.1] := by
  obtain ⟨line, mark⟩ := s
  cases mark with
  | none => rfl
  | some mark =>
    have hcheck : Marker.check .file file = .error (.delimiter .file file) := by
      rw [Marker.check, if_pos (by simpa [Marker.delimiter] using hfile)]
    simp only [instrumentLine, Marker.text, hcheck, Option.isSome_some, if_true]
    rfl

/-- A stylesheet with a marked line is refused for a file whose path holds a delimiter. -/
theorem instrumentGroups_eq_error (hfile : '|' ∈ file.toList) {n : Nat} (h : Marked content n) :
    instrumentGroups sentinel file content = .error (.delimiter .file file) := by
  obtain ⟨s, hs, hmark⟩ := h
  have hmem : (s, 1 + n) ∈ (scanned content).zipIdx 1 :=
    List.mem_of_getElem? (i := n) (by rw [List.getElem?_zipIdx, hs]; rfl)
  -- Some line is refused, and whichever comes first is refused for the file.
  have hrefused : ¬ HasResult (instrumentGroups sentinel file content) := by
    intro hresult
    obtain ⟨group, hgroup⟩ := hasResult_mapM.mp hresult _ hmem
    have hline := (instrumentLine_of_delimiter hfile _ (1 + n) s).symm.trans hgroup
    rw [if_pos hmark] at hline
    exact absurd hline (by simp)
  obtain ⟨e, he⟩ := not_hasResult.mp hrefused
  obtain ⟨-, ⟨s', i⟩, -, -, -, hfirst⟩ := mapM_eq_error.mp he
  have hline := (instrumentLine_of_delimiter hfile _ i s').symm.trans hfirst
  split at hline
  · rw [he, ← Except.error.inj hline]
  · exact absurd hline (by simp)

/-- The text of a marker is refused for nothing but a delimiter. -/
theorem eq_delimiter_of_text {line : Int} {element : String} {e : Marker.EncodeError}
    (h : Marker.text sentinel file line element = .error e) :
    ∃ field value, e = .delimiter field value := by
  have hcheck : ∀ {field value}, Marker.check field value = .error e →
      ∃ field value, e = .delimiter field value := by
    intro field value hrefused
    unfold Marker.check at hrefused
    split at hrefused
    · exact ⟨_, _, (Except.error.inj hrefused).symm⟩
    · exact absurd hrefused (by simp)
  rcases bind_eq_error.mp h with hfile | ⟨-, -, hrest⟩
  · exact hcheck hfile
  rcases bind_eq_error.mp hrest with helement | ⟨-, -, hjoined⟩
  · exact hcheck helement
  · exact absurd hjoined (by simp [pure, Except.pure])

/-- A stylesheet is refused for nothing but a delimiter. -/
theorem eq_delimiter_of_instrument {content : String} {e : Marker.EncodeError}
    (h : instrument sentinel file content = .error e) :
    ∃ field value, e = .delimiter field value := by
  obtain ⟨-, ⟨⟨line, mark⟩, i⟩, -, -, -, hline⟩ := mapM_eq_error.mp (map_eq_error.mp
    (map_eq_error.mp h))
  cases mark with
  | none => exact absurd hline (by simp [instrumentLine])
  | some mark => exact eq_delimiter_of_text (map_eq_error.mp hline)

/-- A stylesheet is not refused when no line is marked or the path of the file holds no delimiter:
the lines of its rows are written. -/
theorem instrumentGroups_eq_rows (h : '|' ∈ file.toList → ∀ n, ¬ Marked content n) :
    instrumentGroups sentinel file content =
      .ok ((rowsFrom (instructionPrefix content) sentinel file 1 (scanned content)).map
        Row.lines) := by
  rw [rowsFrom, List.map_map]
  refine mapM_eq_ok fun p hp => ?_
  obtain ⟨⟨line, mark⟩, i⟩ := p
  by_cases hfile : '|' ∈ file.toList
  · have hs : (line, mark) ∈ scanned content := List.fst_mem_of_mem_zipIdx hp
    obtain ⟨n, hn⟩ := List.mem_iff_getElem?.mp hs
    have hnone : mark.isSome = false := Bool.not_eq_true _ ▸ fun hmark => h hfile n ⟨_, hn, hmark⟩
    obtain rfl : mark = none := by simpa using hnone
    rfl
  · refine (instrumentLine_eq_ok _ sentinel hfile i
      (delimiter_not_mem_name (List.fst_mem_of_mem_zipIdx hp))).trans ?_
    cases mark <;> rfl

/-! ## Inserted lines -/

/-- The line is an instruction that writes a comment with this text, which is escaped in it; before
the instruction stand the blanks `indent`. -/
def WritesComment (xsl indent text line : List Char) : Prop :=
  ∃ written, line = indent ++ '<' :: (xsl ++ ":comment>".toList ++ (written ++
      '<' :: '/' :: (xsl ++ ":comment>".toList))) ∧
    '<' ∉ written ∧ Entity.unescapeXml written = text

/-- An inserted line writes the text of its marker. -/
theorem writesComment_markerLine (xsl : List Char) (mark : Literal) (text : String) :
    WritesComment xsl mark.indent text.toList (markerLine xsl mark text) :=
  ⟨Entity.escape text.toList, by simp [markerLine], (Entity.not_mem_escape _).1,
    Entity.unescapeXml_escape _⟩

/-- No line feed comes in by escaping. -/
theorem feed_not_mem_escape {s : List Char} (h : '\n' ∉ s) : '\n' ∉ Entity.escape s := by
  intro hmem
  obtain ⟨c, hc, hfeed⟩ := List.mem_flatMap.mp hmem
  rcases Entity.mem_escapeChar hfeed with ⟨rfl, -, -⟩ | hletter
  · exact h hc
  · exact absurd hletter (by decide)

/-- The lines of the rows are single lines. -/
theorem feed_not_mem_rows (hsentinel : '\n' ∉ sentinel.toList) (hfile : '\n' ∉ file.toList)
    {row : Row}
    (hrow : row ∈ rowsFrom (instructionPrefix content) sentinel file 1 (scanned content)) :
    ∀ l ∈ row.lines, '\n' ∉ l := by
  obtain ⟨⟨⟨line, mark⟩, n⟩, hp, rfl⟩ := List.mem_map.mp hrow
  have hs : (line, mark) ∈ scanned content := List.fst_mem_of_mem_zipIdx hp
  have hline : '\n' ∉ line := by
    have hmem : line ∈ (scanned content).map Prod.fst := List.mem_map_of_mem (f := Prod.fst) hs
    rw [scanned, map_fst_scanLines] at hmem
    exact (infix_of_mem_lines hmem).2
  cases mark with
  | none => simpa [markedRow, Row.lines] using hline
  | some mark =>
    obtain ⟨hindent, hname, -⟩ := literal_of_mem_scanLines hs rfl
    have hblanks : '\n' ∉ mark.indent := by
      rw [hindent]
      exact fun h => hline ((List.takeWhile_prefix isBlank).subset h)
    have hprefix : '\n' ∉ instructionPrefix content := fun h =>
      absurd (isPrefixChar_of_mem_instructionPrefix h) (by decide)
    have hdigits : '\n' ∉ decimal n := fun h => absurd (isDigit_of_mem_decimal h) (by decide)
    have helement : '\n' ∉ mark.name := fun h =>
      (hname _ h).ne (by decide) (by decide) (by decide) rfl
    have htext : '\n' ∉ (markerText sentinel file n mark).toList := by
      simp [toList_markerText, hsentinel, hfile, hdigits, helement]
    have hmarker : '\n' ∉ markerLine (instructionPrefix content) mark
        (markerText sentinel file n mark) := by
      simp [markerLine, hblanks, hprefix, feed_not_mem_escape htext]
    simpa [markedRow, Row.lines] using ⟨hmarker, hline⟩

/-- What is inserted before a line writes the marker of the element that the line opens, with its
number, behind the blanks of the line. -/
theorem writesComment_of_row {n : Nat} {row : Row} {x : List Char}
    (hrow : (rowsFrom (instructionPrefix content) sentinel file 1 (scanned content))[n]? = some row)
    (hx : x ∈ row.inserted) :
    ∃ name, Opens row.line name ∧
      WritesComment (instructionPrefix content) (row.line.takeWhile isBlank)
        (sentinel.toList ++ '|' :: (file.toList ++ '|' :: (decimal (n + 1) ++ '|' :: name))) x := by
  obtain ⟨⟨line, mark⟩, hs, rfl⟩ := getElem?_rowsFrom.mp hrow
  obtain ⟨mark, rfl, rfl⟩ := Option.map_eq_some_iff.mp hx
  obtain ⟨hindent, -, hopens⟩ := literal_of_mem_scanLines (List.mem_of_getElem? hs) rfl
  refine ⟨mark.name, hopens, ?_⟩
  have hwrites := writesComment_markerLine (instructionPrefix content) mark
    (markerText sentinel file (1 + n) mark)
  rw [toList_markerText, hindent] at hwrites
  rwa [Nat.add_comm n 1]

end

/-! ## The stylesheet as a whole -/

/-- Instrumenting a stylesheet is refused exactly when the path of the file holds a delimiter and
some line is marked; otherwise its lines are kept as they are, and before each marked one stands one
line more, which writes the marker. Which lines are marked is told by any file without a delimiter
and any sentinel. -/
theorem instrument_inserts {sentinel file : String} (hsentinel : '\n' ∉ sentinel.toList)
    (hfile : '\n' ∉ file.toList) (content : String) {sentinel' file' : String}
    (hvalid : '|' ∉ file'.toList) :
    (('|' ∈ file.toList ∧ ∃ n, Inserts sentinel' file' content.toList n) →
      instrument sentinel file content = .error (.delimiter .file file)) ∧
    (¬ ('|' ∈ file.toList ∧ ∃ n, Inserts sentinel' file' content.toList n) →
      ∃ (text : String) (rows : List Row), instrument sentinel file content = .ok text ∧
        rows.map Row.line = lines content.toList ∧
        splitOn '\n' text.toList = rows.flatMap Row.lines ∧
        ∀ n row, rows[n]? = some row →
          (row.inserted.isSome = true ↔ Inserts sentinel' file' content.toList n) ∧
          ∀ x ∈ row.inserted, ∃ name, Opens row.line name ∧
            WritesComment (instructionPrefix content.toList) (row.line.takeWhile isBlank)
              (sentinel.toList ++ '|' :: (file.toList ++ '|' :: (decimal (n + 1) ++ '|' :: name)))
              x) := by
  simp only [inserts_iff hvalid]
  constructor
  · rintro ⟨hbar, n, hmarked⟩
    rw [instrument, instrumentLines_eq, instrumentGroups_eq_error hbar hmarked]
    rfl
  · intro hnot
    have hgroups := @instrumentGroups_eq_rows sentinel file content.toList
      fun hbar n hmarked => hnot ⟨hbar, n, hmarked⟩
    generalize hrows : rowsFrom (instructionPrefix content.toList) sentinel file 1
      (scanned content.toList) = rows at hgroups
    have hlines : rows.map Row.line = lines content.toList := by
      rw [← hrows, map_line_rowsFrom]
      exact map_fst_scanLines _ _
    have hne : rows.flatMap Row.lines ≠ [] := by
      intro hnil
      have hempty : rows = [] := by
        cases rows with
        | nil => rfl
        | cons row rows => exact absurd hnil (by simp [Row.lines])
      rw [hempty] at hlines
      exact lines_ne_nil _ hlines.symm
    refine ⟨_, rows, by rw [instrument, instrumentLines_eq, hgroups]; rfl, hlines, ?_, ?_⟩
    · rw [toList_joinLines, ← List.flatMap_def]
      refine splitOn_intercalate hne fun l hl => ?_
      obtain ⟨row, hrow, hl⟩ := List.mem_flatMap.mp hl
      exact feed_not_mem_rows hsentinel hfile (hrows ▸ hrow) l hl
    · intro n row hrow
      rw [← hrows] at hrow
      refine ⟨?_, fun x hx => writesComment_of_row hrow hx⟩
      obtain ⟨s, hs, rfl⟩ := getElem?_rowsFrom.mp hrow
      rw [Marked, hs]
      simp [markedRow]

/-- For a path with a delimiter the sample is refused, and for one that has to be escaped a line is
inserted before its second line. -/
theorem instrument_inserts_sampleStylesheet :
    instrument "TRACE" "a|b.xsl" sampleStylesheet = .error (.delimiter .file "a|b.xsl") ∧
    ∃ (text : String) (rows : List Row), instrument "TRACE" "a&b.xsl" sampleStylesheet = .ok text ∧
      rows.map Row.line = lines sampleStylesheet.toList ∧
      splitOn '\n' text.toList = rows.flatMap Row.lines ∧
      ∃ row x, rows[1]? = some row ∧ x ∈ row.inserted ∧
        WritesComment "xsl".toList "  ".toList "TRACE|a&b.xsl|2|a:b".toList x := by
  have hvalid : '|' ∉ "b.xsl".toList := by decide
  have hinserts : Inserts "T" "b.xsl" sampleStylesheet.toList 1 := ⟨_, _, rfl, rfl, by decide⟩
  have hfile : '|' ∉ "a&b.xsl".toList := by decide
  refine ⟨?_, ?_⟩
  · exact (instrument_inserts (by decide) (by decide) sampleStylesheet hvalid).1
      ⟨by decide, 1, hinserts⟩
  obtain ⟨text, rows, htext, hlines, hsplit, hrows⟩ :=
    (@instrument_inserts "TRACE" "a&b.xsl" (by decide) (by decide) sampleStylesheet _ _ hvalid).2
      fun h => hfile h.1
  refine ⟨text, rows, htext, hlines, hsplit, ?_⟩
  have hlength : rows.length = 4 := by
    rw [← List.length_map (f := Row.line), hlines]
    rfl
  obtain ⟨row, hrow⟩ : ∃ row, rows[1]? = some row := ⟨_, List.getElem?_eq_getElem (by omega)⟩
  obtain ⟨hiff, hx⟩ := hrows 1 row hrow
  obtain ⟨x, hinserted⟩ := Option.isSome_iff_exists.mp (hiff.mpr hinserts)
  obtain ⟨name, hopens, hwrites⟩ := hx x hinserted
  have hline : row.line = "  <a:b id='1'>".toList := by
    have hget := congrArg (fun ls => ls[1]?) hlines
    simp only [List.getElem?_map, hrow, Option.map_some] at hget
    exact Option.some.inj (hget.trans rfl)
  rw [hopens.name_eq, hline] at hwrites
  exact ⟨row, x, hrow, hinserted, hwrites⟩

end StylesheetTrace.Stylesheet
