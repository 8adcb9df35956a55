import Mathlib.Algebra.BigOperators.Group.List.Basic
import Mathlib.Algebra.GroupWithZero.Nat
import StylesheetTrace.Proofs.Stylesheet.Erasure
import StylesheetTrace.Proofs.Text.Count

/-!
# Counting the inserted markers

The beginnings of markers in an instrumented stylesheet are counted as a word, the sentinel with the
bar behind it, wherever it stands. An inserted line adds its own share to what the lines of the
stylesheet have (`occurrences_rows`). The share is one for the marker itself, unless the sentinel is
changed by being escaped, and one more for each of the fields file and line that ends with the
sentinel (`occurrences_markerText`).
-/

namespace StylesheetTrace.Stylesheet

open StylesheetTrace.Text StylesheetTrace.Markup

/-! ## Markers -/

/-- The literal elements before which a marker is written, with the numbers of their lines. -/
def marks (content : List Char) : List (Nat × Literal) :=
  ((scanned content).zipIdx 1).filterMap fun p => p.1.2.map fun mark => (p.2, mark)

/-- The word that is counted: a sentinel and the bar behind it. -/
def markerHead (sentinel : String) : List Char :=
  sentinel.toList ++ [Marker.delimiter]

/-- The bar stands in the word. -/
theorem bar_mem_markerHead (sentinel : String) : '|' ∈ markerHead sentinel :=
  List.mem_append_right _ List.mem_cons_self

/-- The word is not empty. -/
theorem markerHead_ne_nil (sentinel : String) : markerHead sentinel ≠ [] :=
  List.ne_nil_of_mem (bar_mem_markerHead sentinel)

/-- Of the characters of the word only the bar may be missing in the sentinel. -/
theorem not_mem_markerHead {sentinel : String} {d : Char} (hd : d ∉ sentinel.toList)
    (hbar : d ≠ '|') : d ∉ markerHead sentinel := by
  rw [markerHead, List.mem_append, List.mem_singleton]
  exact not_or.mpr ⟨hd, hbar⟩

/-- A mark is that of a line that opens its element behind blanks. -/
theorem exists_of_scanned {content : List Char} {line : List Char} {mark : Literal}
    (h : (line, some mark) ∈ scanned content) :
    (∃ t, line = mark.indent ++ '<' :: t) ∧ '\n' ∉ line ∧ (∀ c ∈ mark.indent, isBlank c = true) ∧
      ∀ c ∈ mark.name, IsNameChar c := by
  obtain ⟨hindent, hname, indent, rest, hline, hblanks, -⟩ := literal_of_mem_scanLines h rfl
  have hfeed : '\n' ∉ line := by
    have hmem : line ∈ (scanned content).map Prod.fst := List.mem_map_of_mem (f := Prod.fst) h
    rw [scanned, map_fst_scanLines] at hmem
    exact (infix_of_mem_lines hmem).2
  have hsame : mark.indent = indent := by
    rw [hindent, hline, takeWhile_append_of_head (head?_cons_eq_false (by decide) _),
      List.takeWhile_eq_self_iff.mpr hblanks]
  exact ⟨⟨_, hsame ▸ hline⟩, hfeed, hsame ▸ hblanks, hname⟩

/-- An inserted line is the text of its marker, escaped, between two tags behind blanks. -/
theorem exists_markerLine (content : List Char) (mark : Literal) (text : String) :
    ∃ tag, (∀ d, isPrefixChar d = false → d ≠ ':' → d ∉ tag) ∧
      markerLine (instructionPrefix content) mark text = mark.indent ++ '<' ::
        (tag ++ '>' :: (Entity.escape text.toList ++ '<' :: '/' :: (tag ++ ['>']))) := by
  refine ⟨instructionPrefix content ++ ":comment".toList, fun d hother hcolon h => ?_, ?_⟩
  · have hletters : ∀ c ∈ ":comment".toList, isPrefixChar c = true ∨ c = ':' :=
      List.all_iff_forall_prop.mp (by decide)
    rcases List.mem_append.mp h with h | h
    · exact Bool.false_ne_true (hother.symm.trans (isPrefixChar_of_mem_instructionPrefix h))
    · rcases hletters d h with h | h
      · exact Bool.false_ne_true (hother.symm.trans h)
      · exact hcolon h
  · have hword : ":comment>".toList = ":comment".toList ++ ['>'] := by decide
    simp [markerLine, hword]

/-- No bar stands in blanks. -/
theorem bar_not_mem_indent {mark : Literal} (h : ∀ c ∈ mark.indent, isBlank c = true) :
    '|' ∉ mark.indent := fun hbar => absurd (h _ hbar) (by decide)

/-- The text of a marker, escaped, is its escaped fields. -/
theorem escape_markerText (sentinel file : String) (n : Nat) (mark : Literal) :
    Entity.escape (markerText sentinel file n mark).toList =
      Entity.escape sentinel.toList ++ '|' ::
        (Entity.escape file.toList ++ '|' :: (decimal n ++ '|' :: Entity.escape mark.name)) := by
  have hbar : ∀ s, Entity.escape ('|' :: s) = '|' :: Entity.escape s := fun s => rfl
  have hdigits : Entity.escape (decimal n) = decimal n := by
    refine Entity.escape_eq_self fun c hc => ⟨?_, ?_, ?_⟩ <;>
      (rintro rfl; exact absurd (isDigit_of_mem_decimal hc) (by decide))
  rw [toList_markerText, Entity.escape_append, hbar, Entity.escape_append, hbar,
    Entity.escape_append, hbar, hdigits]

/-- Escaping brings no bar in. -/
theorem bar_mem_escape {s : List Char} : '|' ∈ Entity.escape s ↔ '|' ∈ s := by
  rw [← List.count_pos_iff, Entity.count_escape (by decide), List.count_pos_iff]

/-! ## The share of one marker -/

section

variable {sentinel : String}

/-- A marker is counted once, unless its sentinel is changed by being escaped, once more if the path
of its file, as it is written, ends with the sentinel, and once more if the number of its line
does. -/
theorem occurrences_markerText {file : String} {mark : Literal} (hsentinel : '|' ∉ sentinel.toList)
    (hfile : '|' ∉ file.toList) (hname : '|' ∉ mark.name) (n : Nat) :
    occurrences (markerHead sentinel) (Entity.escape (markerText sentinel file n mark).toList) =
      (if Entity.escape sentinel.toList = sentinel.toList then 1 else 0) +
        (if sentinel.toList <:+ Entity.escape file.toList then 1 else 0) +
          if sentinel.toList <:+ decimal n then 1 else 0 := by
  have hown : sentinel.toList <:+ Entity.escape sentinel.toList ↔
      Entity.escape sentinel.toList = sentinel.toList :=
    ⟨Entity.escape_eq_self_of_suffix, fun h => h.symm ▸ List.suffix_refl _⟩
  have hdigits : '|' ∉ decimal n := fun h => absurd (isDigit_of_mem_decimal h) (by decide)
  have hrest : occurrences (markerHead sentinel) (Entity.escape mark.name) = 0 :=
    occurrences_of_not_mem (markerHead_ne_nil sentinel) (bar_mem_markerHead sentinel)
      (mt bar_mem_escape.mp hname)
  have hlast : ∀ {u : List Char}, '|' ∉ u → ∀ v, occurrences (markerHead sentinel) (u ++ '|' :: v) =
      (if sentinel.toList <:+ u then 1 else 0) + occurrences (markerHead sentinel) v :=
    fun hu v => occurrences_append_last hsentinel hu v
  rw [escape_markerText, hlast (mt bar_mem_escape.mp hsentinel), hlast (mt bar_mem_escape.mp hfile),
    hlast hdigits, hrest, Nat.add_zero, Nat.add_assoc]
  simp only [hown]

/-- A word with a character that only the text before a marker holds, and that therefore ends inside
the marker, would have to end where the marker has the same number of bars; but there the marker has
the whole word, escaped. -/
theorem not_infix_of_escaped {t front fields behind : List Char} {c : Char} (hc : c ∈ t)
    (hfront : '|' ∉ front) (hbehind : '|' ∉ behind)
    (hfields : c ∉ Entity.escape t ++ '|' :: fields) :
    ¬ t ++ ['|'] <:+: front ++ (Entity.escape t ++ '|' :: fields ++ behind) := by
  rintro ⟨p, q, hpq⟩
  obtain ⟨x, y, ht⟩ := List.append_of_mem hc
  have hplace : (p ++ x) ++ c :: (y ++ '|' :: q) =
      front ++ (Entity.escape t ++ '|' :: fields ++ behind) := by
    rw [← hpq, ht]
    simp
  -- In the marker the character does not stand, and behind it no bar would follow.
  have houtside : ∀ a, a ++ c :: (y ++ '|' :: q) ≠ Entity.escape t ++ '|' :: fields ++ behind := by
    intro a h
    obtain ⟨b, -, hb⟩ := append_cons_eq_append hfields h
    exact hbehind (hb ▸ by simp)
  rcases List.append_eq_append_iff.mp hplace with ⟨a, hbefore, ha⟩ | ⟨a, -, ha⟩
  · cases a with
    | nil => exact houtside [] ha
    | cons d a =>
      obtain ⟨rfl, hrest⟩ := List.cons.inj ha
      simp only [hbefore, List.mem_append, List.mem_cons, not_or] at hfront
      -- The rest of the word would end before the first bar behind the escaped word.
      have hlength : (y ++ ['|']).length ≤ (a ++ Entity.escape t).length := by
        have hlong := Entity.length_le_length_escape t
        rw [ht] at hlong ⊢
        simp only [List.length_append, List.length_cons, List.length_nil] at hlong ⊢
        omega
      have hbegins : y ++ ['|'] <+: a ++ Entity.escape t :=
        List.prefix_of_prefix_length_le ⟨q, by rw [List.append_assoc, List.singleton_append]⟩
          ⟨'|' :: (fields ++ behind), by simp [hrest]⟩ hlength
      have hbars : (Entity.escape t).count '|' = y.count '|' := by
        rw [Entity.count_escape (by decide), ht, List.count_append,
          List.count_eq_zero_of_not_mem hfront.1.2, List.count_cons_of_ne (Ne.symm hfront.2.1),
          Nat.zero_add]
      have hcount := hbegins.sublist.count_le '|'
      rw [List.count_append, List.count_append, hbars, List.count_eq_zero_of_not_mem hfront.2.2,
        List.count_singleton_self] at hcount
      omega
  · exact houtside a ha.symm

/-- An angle bracket stands in no escaped text. -/
theorem not_mem_escape_of_angle {c : Char} (hangle : c = '<' ∨ c = '>') (s : List Char) :
    c ∉ Entity.escape s := by
  rcases hangle with rfl | rfl
  · exact (Entity.not_mem_escape s).1
  · exact (Entity.not_mem_escape s).2

/-- A sentinel with an angle bracket stands nowhere in an inserted line, where it is escaped. -/
theorem not_infix_markerLine (content : List Char) {mark : Literal}
    (hindent : ∀ c ∈ mark.indent, isBlank c = true) (file : String) (n : Nat) {c : Char}
    (hangle : c = '<' ∨ c = '>') (hc : c ∈ sentinel.toList) :
    ¬ markerHead sentinel <:+:
      markerLine (instructionPrefix content) mark (markerText sentinel file n mark) := by
  obtain ⟨tag, hletters, hline⟩ := exists_markerLine content mark (markerText sentinel file n mark)
  have htag : '|' ∉ tag := hletters '|' (by decide) (by decide)
  have hblank := bar_not_mem_indent hindent
  have hwritten := not_mem_escape_of_angle hangle (markerText sentinel file n mark).toList
  rw [escape_markerText] at hline hwritten
  have hfront : '|' ∉ mark.indent ++ '<' :: (tag ++ ['>']) := by simp [hblank, htag]
  have hbehind : '|' ∉ '<' :: '/' :: (tag ++ ['>']) := by simp [htag]
  have hword := not_infix_of_escaped hc hfront hbehind hwritten
  rw [hline]
  simpa [markerHead, Marker.delimiter] using hword

/-- What an inserted line adds to the count is what the text of its marker adds. -/
theorem occurrences_markerLine (content : List Char) {mark : Literal}
    (hindent : ∀ c ∈ mark.indent, isBlank c = true) (file : String) (n : Nat) :
    occurrences (markerHead sentinel)
        (markerLine (instructionPrefix content) mark (markerText sentinel file n mark)) =
      occurrences (markerHead sentinel)
        (Entity.escape (markerText sentinel file n mark).toList) := by
  have hw := markerHead_ne_nil sentinel
  have hbar := bar_mem_markerHead sentinel
  by_cases hangle : '<' ∉ sentinel.toList ∧ '>' ∉ sentinel.toList
  · -- The word has no angle bracket, so that the parts of the line between them are counted apart.
    obtain ⟨tag, hletters, hline⟩ := exists_markerLine content mark
      (markerText sentinel file n mark)
    have htag : '|' ∉ tag := hletters '|' (by decide) (by decide)
    have hblank := bar_not_mem_indent hindent
    have hlt : '<' ∉ markerHead sentinel := not_mem_markerHead hangle.1 (by decide)
    have hgt : '>' ∉ markerHead sentinel := not_mem_markerHead hangle.2 (by decide)
    have hclosing : '|' ∉ '/' :: (tag ++ ['>']) := by simp [htag]
    rw [hline, occurrences_append_cons hw hlt, occurrences_append_cons hw hgt,
      occurrences_append_cons hw hlt, occurrences_of_not_mem hw hbar hblank,
      occurrences_of_not_mem hw hbar htag, occurrences_of_not_mem hw hbar hclosing]
    omega
  · obtain ⟨c, hc, hmem⟩ : ∃ c, (c = '<' ∨ c = '>') ∧ c ∈ sentinel.toList := by
      by_cases hlt : '<' ∈ sentinel.toList
      · exact ⟨'<', Or.inl rfl, hlt⟩
      · exact ⟨'>', Or.inr rfl, not_not.mp fun hgt => hangle ⟨hlt, hgt⟩⟩
    have hwritten := not_mem_escape_of_angle hc (markerText sentinel file n mark).toList
    rw [(occurrences_eq_zero hw).mpr (not_infix_markerLine content hindent file n hc hmem),
      occurrences_of_not_mem hw (List.mem_append_left _ hmem) hwritten]

end

/-! ## The share of the inserted lines -/

/-- A line `x` that is inserted before a line is counted apart from the text around it. -/
def CountedApart (w x line : List Char) : Prop :=
  ∀ before behind, (before = [] ∨ ∃ t, before = t ++ ['\n']) →
    occurrences w (before ++ (x ++ '\n' :: (line ++ behind))) =
      occurrences w (before ++ (line ++ behind)) + occurrences w x

section

variable {w : List Char} (hw : w ≠ [])

include hw

/-- A word without line feeds is counted line by line. -/
theorem countedApart_of_feed (hfeed : '\n' ∉ w) (x line : List Char) : CountedApart w x line := by
  rintro before behind (rfl | ⟨t, rfl⟩)
  · rw [List.nil_append, List.nil_append, occurrences_append_cons hw hfeed, Nat.add_comm]
  · rw [List.append_assoc, List.singleton_append, List.append_assoc, List.singleton_append,
      occurrences_append_cons hw hfeed, occurrences_append_cons hw hfeed,
      occurrences_append_cons hw hfeed]
    omega

/-- A word without angle brackets is counted between them, and those of an instruction before the
blanks and the bracket of a line part nothing of the line. -/
theorem countedApart_of_angle (hlt : '<' ∉ w) (hgt : '>' ∉ w) (hbar : '|' ∈ w)
    {indent tag text t : List Char} (hindent : '|' ∉ indent) (htag : '|' ∉ tag) :
    CountedApart w (indent ++ '<' :: (tag ++ '>' :: (text ++ '<' :: '/' :: (tag ++ ['>']))))
      (indent ++ '<' :: t) := by
  intro before behind _
  have hsplit : ∀ u v, occurrences w (u ++ '<' :: v) = occurrences w u + occurrences w v :=
    occurrences_append_cons hw hlt
  have hcut : ∀ u v, occurrences w (u ++ '>' :: v) = occurrences w u + occurrences w v :=
    occurrences_append_cons hw hgt
  have hnone : ∀ u, '|' ∉ u → occurrences w u = 0 := fun u => occurrences_of_not_mem hw hbar
  have hclosing : '|' ∉ '/' :: tag := by simp [htag]
  have hbetween : '|' ∉ '\n' :: indent := by simp [hindent]
  have hinserted : occurrences w (indent ++ '<' :: (tag ++ '>' :: (text ++ '<' :: '/' ::
      (tag ++ ['>'])))) = occurrences w text := by
    rw [hsplit, hcut, hsplit, hnone _ hindent, hnone _ htag, ← List.cons_append, hcut,
      hnone _ hclosing, hnone [] List.not_mem_nil]
    omega
  have hwhole :
      before ++ (indent ++ '<' :: (tag ++ '>' :: (text ++ '<' :: '/' :: (tag ++ ['>']))) ++
        '\n' :: (indent ++ '<' :: t ++ behind)) =
      (before ++ indent) ++ '<' :: (tag ++ '>' :: (text ++
        '<' :: (('/' :: tag) ++ '>' :: (('\n' :: indent) ++ '<' :: (t ++ behind))))) := by
    simp
  have hline : before ++ (indent ++ '<' :: t ++ behind) =
      (before ++ indent) ++ '<' :: (t ++ behind) := by
    simp
  rw [hwhole, hline, hinserted, hsplit, hcut, hsplit, hcut, hsplit, hsplit, hnone _ htag,
    hnone _ hclosing, hnone _ hbetween]
  omega

omit hw in
/-- The lines of rows are counted as those of the stylesheet and those that are inserted. -/
theorem occurrences_rows {rows : List Row}
    (hrows : ∀ row ∈ rows, ∀ x ∈ row.inserted, CountedApart w x row.line) {before : List Char}
    (hbefore : before = [] ∨ ∃ t, before = t ++ ['\n']) :
    occurrences w (before ++ ['\n'].intercalate (rows.flatMap Row.lines)) =
      occurrences w (before ++ ['\n'].intercalate (rows.map Row.line)) +
        ((rows.filterMap Row.inserted).map (occurrences w)).sum := by
  induction rows generalizing before with
  | nil => rfl
  | cons row rows ih =>
    obtain ⟨inserted, line⟩ := row
    rw [List.forall_mem_cons] at hrows
    -- What stands behind the line in the two texts, and that it is counted behind the line.
    obtain ⟨behind, behind', hlines, hline, hrest⟩ : ∃ behind behind',
        ['\n'].intercalate (line :: rows.flatMap Row.lines) = line ++ behind ∧
        ['\n'].intercalate (line :: rows.map Row.line) = line ++ behind' ∧
        occurrences w (before ++ (line ++ behind)) = occurrences w (before ++ (line ++ behind')) +
          ((rows.filterMap Row.inserted).map (occurrences w)).sum := by
      cases rows with
      | nil => exact ⟨[], [], by simp, by simp, rfl⟩
      | cons row rows =>
        have hne : (row :: rows).flatMap Row.lines ≠ [] := by simp [Row.lines]
        refine ⟨_, _, by rw [List.intercalate_cons_of_ne_nil hne, List.append_assoc],
          by rw [List.map_cons, List.intercalate_cons_cons, List.append_assoc], ?_⟩
        have hnext := ih hrows.2 (Or.inr ⟨before ++ line, rfl⟩)
        simpa using hnext
    cases inserted with
    | none =>
      have htext : (⟨none, line⟩ :: rows : List Row).flatMap Row.lines =
          line :: rows.flatMap Row.lines := rfl
      rw [htext, List.map_cons, hlines, hline, hrest, List.filterMap_cons]
    | some x =>
      have htext : ['\n'].intercalate ((⟨some x, line⟩ :: rows : List Row).flatMap Row.lines) =
          x ++ '\n' :: (line ++ behind) := by
        have hflat : (⟨some x, line⟩ :: rows : List Row).flatMap Row.lines =
            x :: line :: rows.flatMap Row.lines := rfl
        rw [hflat, List.intercalate_cons_cons, hlines, List.append_assoc, List.singleton_append]
      rw [htext, List.map_cons, hline, hrows.1 x rfl before behind hbefore, hrest,
        List.filterMap_cons]
      simp only [List.map_cons, List.sum_cons]
      omega

end

/-! ## Lines -/

/-- The lines of rows add up to what the lines of the stylesheet and the inserted ones do. -/
theorem sum_map_rows (f : List Char → Nat) (rows : List Row) :
    ((rows.flatMap Row.lines).map f).sum =
      ((rows.map Row.line).map f).sum + ((rows.filterMap Row.inserted).map f).sum := by
  induction rows with
  | nil => rfl
  | cons row rows ih =>
    rw [List.flatMap_cons, List.map_append, List.sum_append, ih]
    obtain ⟨inserted, line⟩ := row
    cases inserted <;> simp [Row.lines] <;> omega

/-- Joined texts have the lines of each. -/
theorem length_lines_intercalate : ∀ {ls : List (List Char)}, ls ≠ [] →
    (lines (['\n'].intercalate ls)).length = (ls.map fun l => l.count '\n' + 1).sum
  | [], h => absurd rfl h
  | [l], _ => by simp [length_lines_eq_count]
  | l :: m :: ls, _ => by
    have hrest := length_lines_intercalate (List.cons_ne_nil m ls)
    rw [length_lines_eq_count] at hrest ⊢
    rw [List.intercalate_cons_cons, List.append_assoc, List.singleton_append, List.count_append,
      List.count_cons_self, hrest]
    simp only [List.map_cons, List.sum_cons]
    omega

/-- An inserted line has the line feeds of the sentinel and of the path. -/
theorem count_feed_markerLine (content : List Char) {mark : Literal}
    (hindent : '\n' ∉ mark.indent) (hname : '\n' ∉ mark.name) (sentinel file : String) (n : Nat) :
    (markerLine (instructionPrefix content) mark (markerText sentinel file n mark)).count '\n' =
      sentinel.toList.count '\n' + file.toList.count '\n' := by
  obtain ⟨tag, hletters, hline⟩ := exists_markerLine content mark (markerText sentinel file n mark)
  have htag : tag.count '\n' = 0 :=
    List.count_eq_zero_of_not_mem (hletters '\n' (by decide) (by decide))
  have hdigits : (decimal n).count '\n' = 0 :=
    List.count_eq_zero_of_not_mem fun h => absurd (isDigit_of_mem_decimal h) (by decide)
  rw [hline, toList_markerText]
  simp [List.count_append, Entity.count_escape, htag, hdigits,
    List.count_eq_zero_of_not_mem hindent, List.count_eq_zero_of_not_mem hname]

/-! ## The stylesheet as a whole -/

/-- What the number of markers that is counted in an instrumented stylesheet is made up of. -/
structure CountsMarkers (sentinel file content text : String) (count : Nat) : Prop where
  /-- Each inserted line is one line more, or several if the sentinel or the path has several. -/
  length_lines : (lines text.toList).length = (lines content.toList).length +
    (marks content.toList).length *
      (1 + sentinel.toList.count '\n' + file.toList.count '\n')
  /-- Counted are what the stylesheet has and the shares of the inserted lines, unless the sentinel
  has both line feeds and angle brackets. -/
  count_eq : ('\n' ∉ sentinel.toList ∨ '<' ∉ sentinel.toList ∧ '>' ∉ sentinel.toList) →
    count = occurrences (markerHead sentinel) (['\n'].intercalate (lines content.toList)) +
      ((marks content.toList).map fun m => occurrences (markerHead sentinel)
        (Entity.escape (markerText sentinel file m.1 m.2).toList)).sum
  /-- The share of an inserted line. -/
  share_eq : '|' ∉ sentinel.toList → ∀ m ∈ marks content.toList,
    occurrences (markerHead sentinel)
        (Entity.escape (markerText sentinel file m.1 m.2).toList) =
      (if Entity.escape sentinel.toList = sentinel.toList then 1 else 0) +
        (if sentinel.toList <:+ Entity.escape file.toList then 1 else 0) +
          if sentinel.toList <:+ decimal m.1 then 1 else 0
  /-- The inserted markers are counted, and nothing else. -/
  count_eq_iff : '|' ∉ sentinel.toList → Entity.escape sentinel.toList = sentinel.toList →
    (count = (marks content.toList).length ↔
      ¬ markerHead sentinel <:+: ['\n'].intercalate (lines content.toList) ∧
        ∀ m ∈ marks content.toList, ¬ sentinel.toList <:+ Entity.escape file.toList ∧
          ¬ sentinel.toList <:+ decimal m.1)

section

variable {sentinel file content text : String}

/-- An instrumented stylesheet is its rows, and no bar stands in a path that is written. -/
theorem rows_of_instrument (h : instrument sentinel file content = .ok text) :
    ('|' ∈ file.toList → marks content.toList = []) ∧
      text.toList = ['\n'].intercalate ((rowsFrom (instructionPrefix content.toList) sentinel file 1
        (scanned content.toList)).flatMap Row.lines) := by
  have hnone : '|' ∈ file.toList → ∀ n, ¬ Marked content.toList n := by
    intro hbar n hmarked
    rw [instrument, instrumentLines_eq, instrumentGroups_eq_error hbar hmarked] at h
    exact absurd h (by simp [Except.map])
  rw [instrument, instrumentLines_eq, instrumentGroups_eq_rows hnone] at h
  obtain rfl := Except.ok.inj h
  refine ⟨fun hbar => ?_, by rw [toList_joinLines, List.flatMap_def]⟩
  rw [marks, List.filterMap_eq_nil_iff]
  rintro ⟨⟨line, mark⟩, i⟩ hp
  obtain ⟨n, hn⟩ := List.mem_iff_getElem?.mp (List.fst_mem_of_mem_zipIdx hp)
  have hmark : ¬ mark.isSome = true := fun hsome => hnone hbar n ⟨_, hn, hsome⟩
  simpa using hmark

/-- The inserted lines are those of the marks. -/
theorem filterMap_inserted_rowsFrom (sentinel file : String) (content : List Char) :
    (rowsFrom (instructionPrefix content) sentinel file 1 (scanned content)).filterMap
        Row.inserted =
      (marks content).map fun m =>
        markerLine (instructionPrefix content) m.2 (markerText sentinel file m.1 m.2) := by
  unfold rowsFrom marks
  rw [List.filterMap_map, List.map_filterMap]
  refine List.filterMap_congr fun p _ => ?_
  rw [Option.map_map]
  rfl

/-- A mark is that of a scanned line. -/
theorem scanned_of_mem_marks {content : List Char} {m : Nat × Literal} (h : m ∈ marks content) :
    ∃ line, (line, some m.2) ∈ scanned content := by
  obtain ⟨⟨⟨line, mark⟩, i⟩, hp, hm⟩ := List.mem_filterMap.mp h
  obtain ⟨mark, rfl, rfl⟩ := Option.map_eq_some_iff.mp hm
  exact ⟨line, List.fst_mem_of_mem_zipIdx hp⟩

/-- The lines that the rows keep are those of the stylesheet. -/
theorem map_line_scanned (sentinel file : String) (content : List Char) :
    (rowsFrom (instructionPrefix content) sentinel file 1 (scanned content)).map Row.line =
      lines content :=
  (map_line_rowsFrom _ _ _ _ _).trans (map_fst_scanLines _ _)

/-- The lines of the instrumented stylesheet are those of the stylesheet and the inserted ones. -/
theorem length_lines_of_instrument (h : instrument sentinel file content = .ok text) :
    (lines text.toList).length = (lines content.toList).length + (marks content.toList).length *
      (1 + sentinel.toList.count '\n' + file.toList.count '\n') := by
  have hrows := map_line_scanned sentinel file content.toList
  have hinserted := filterMap_inserted_rowsFrom sentinel file content.toList
  rw [(rows_of_instrument h).2]
  generalize rowsFrom (instructionPrefix content.toList) sentinel file 1
    (scanned content.toList) = rows at hrows hinserted
  have hne : rows.flatMap Row.lines ≠ [] := by
    intro hnil
    cases rows with
    | nil => exact lines_ne_nil _ hrows.symm
    | cons row rows => exact absurd hnil (by simp [Row.lines])
  have hkept : ∀ l ∈ lines content.toList, l.count '\n' + 1 = 1 := fun l hl => by
    rw [List.count_eq_zero_of_not_mem (infix_of_mem_lines hl).2]
  have hmarks : ∀ m ∈ marks content.toList,
      (markerLine (instructionPrefix content.toList) m.2 (markerText sentinel file m.1 m.2)).count
        '\n' + 1 = 1 + sentinel.toList.count '\n' + file.toList.count '\n' := by
    intro m hm
    obtain ⟨line, hline⟩ := scanned_of_mem_marks hm
    obtain ⟨⟨t, ht⟩, hfeed, -, hname⟩ := exists_of_scanned hline
    have hindent : '\n' ∉ m.2.indent := fun h => hfeed (ht ▸ List.mem_append_left _ h)
    have helement : '\n' ∉ m.2.name := fun h =>
      (hname _ h).ne (by decide) (by decide) (by decide) rfl
    rw [count_feed_markerLine content.toList hindent helement]
    omega
  rw [length_lines_intercalate hne, sum_map_rows, hrows, hinserted, List.map_map,
    List.map_congr_left hkept]
  simp only [Function.comp_def]
  rw [List.map_congr_left hmarks]
  simp

/-- The inserted lines are counted apart, unless the sentinel has both line feeds and angle
brackets. -/
theorem countedApart_of_rows
    (hsentinel : '\n' ∉ sentinel.toList ∨ '<' ∉ sentinel.toList ∧ '>' ∉ sentinel.toList)
    {content : List Char} {row : Row}
    (hrow : row ∈ rowsFrom (instructionPrefix content) sentinel file 1 (scanned content)) :
    ∀ x ∈ row.inserted, CountedApart (markerHead sentinel) x row.line := by
  obtain ⟨⟨⟨line, mark⟩, n⟩, hp, rfl⟩ := List.mem_map.mp hrow
  intro x hx
  obtain ⟨mark, rfl, rfl⟩ := Option.map_eq_some_iff.mp hx
  have hw := markerHead_ne_nil sentinel
  rcases hsentinel with hfeed | ⟨hlt, hgt⟩
  · exact countedApart_of_feed hw (not_mem_markerHead hfeed (by decide)) _ _
  · obtain ⟨⟨t, hline⟩, -, hblanks, -⟩ := exists_of_scanned (List.fst_mem_of_mem_zipIdx hp)
    obtain ⟨tag, hletters, hinserted⟩ := exists_markerLine content mark
      (markerText sentinel file n mark)
    show CountedApart _ (markerLine _ mark (markerText sentinel file n mark)) line
    rw [hinserted, hline]
    exact countedApart_of_angle hw (not_mem_markerHead hlt (by decide))
      (not_mem_markerHead hgt (by decide)) (bar_mem_markerHead sentinel)
      (bar_not_mem_indent hblanks) (hletters '|' (by decide) (by decide))

/-- What is counted in an instrumented stylesheet is what the stylesheet has and the shares of the
inserted lines. -/
theorem occurrences_of_instrument (h : instrument sentinel file content = .ok text)
    (hsentinel : '\n' ∉ sentinel.toList ∨ '<' ∉ sentinel.toList ∧ '>' ∉ sentinel.toList) :
    occurrences (markerHead sentinel) text.toList =
      occurrences (markerHead sentinel) (['\n'].intercalate (lines content.toList)) +
        ((marks content.toList).map fun m => occurrences (markerHead sentinel)
          (Entity.escape (markerText sentinel file m.1 m.2).toList)).sum := by
  have hshares : ∀ m ∈ marks content.toList, occurrences (markerHead sentinel)
        (markerLine (instructionPrefix content.toList) m.2 (markerText sentinel file m.1 m.2)) =
      occurrences (markerHead sentinel)
        (Entity.escape (markerText sentinel file m.1 m.2).toList) := by
    intro m hm
    obtain ⟨line, hline⟩ := scanned_of_mem_marks hm
    exact occurrences_markerLine content.toList (exists_of_scanned hline).2.2.1 file m.1
  have hapart : ∀ row ∈ rowsFrom (instructionPrefix content.toList) sentinel file 1
      (scanned content.toList), ∀ x ∈ row.inserted,
        CountedApart (markerHead sentinel) x row.line :=
    fun row hrow => countedApart_of_rows hsentinel hrow
  have hrows := occurrences_rows hapart (Or.inl rfl)
  rw [List.nil_append, List.nil_append, map_line_scanned, filterMap_inserted_rowsFrom,
    List.map_map, Function.comp_def, List.map_congr_left hshares] at hrows
  rw [(rows_of_instrument h).2, hrows]

/-- The shares of the inserted lines. -/
theorem share_of_instrument (h : instrument sentinel file content = .ok text)
    (hsentinel : '|' ∉ sentinel.toList) : ∀ m ∈ marks content.toList,
    occurrences (markerHead sentinel)
        (Entity.escape (markerText sentinel file m.1 m.2).toList) =
      (if Entity.escape sentinel.toList = sentinel.toList then 1 else 0) +
        (if sentinel.toList <:+ Entity.escape file.toList then 1 else 0) +
          if sentinel.toList <:+ decimal m.1 then 1 else 0 := by
  intro m hm
  have hfile : '|' ∉ file.toList := fun hbar =>
    List.ne_nil_of_mem hm ((rows_of_instrument h).1 hbar)
  obtain ⟨line, hline⟩ := scanned_of_mem_marks hm
  have hname : '|' ∉ m.2.name := fun hbar =>
    ((exists_of_scanned hline).2.2.2 _ hbar).ne (by decide) (by decide) (by decide) rfl
  exact occurrences_markerText hsentinel hfile hname m.1

/-- A sentinel that is not changed by being escaped is counted as often as markers are inserted
exactly when it stands with its bar nowhere else. -/
theorem occurrences_eq_length_iff (h : instrument sentinel file content = .ok text)
    (hsentinel : '|' ∉ sentinel.toList)
    (hplain : Entity.escape sentinel.toList = sentinel.toList) :
    occurrences (markerHead sentinel) text.toList = (marks content.toList).length ↔
      ¬ markerHead sentinel <:+: ['\n'].intercalate (lines content.toList) ∧
        ∀ m ∈ marks content.toList, ¬ sentinel.toList <:+ Entity.escape file.toList ∧
          ¬ sentinel.toList <:+ decimal m.1 := by
  have hangle : '<' ∉ sentinel.toList ∧ '>' ∉ sentinel.toList :=
    hplain ▸ Entity.not_mem_escape sentinel.toList
  have hshares : ∀ m ∈ marks content.toList, occurrences (markerHead sentinel)
        (Entity.escape (markerText sentinel file m.1 m.2).toList) =
      1 + ((if sentinel.toList <:+ Entity.escape file.toList then 1 else 0) +
        if sentinel.toList <:+ decimal m.1 then 1 else 0) := fun m hm => by
    rw [share_of_instrument h hsentinel m hm, if_pos hplain, Nat.add_assoc]
  have hone : ((marks content.toList).map fun _ => 1).sum = (marks content.toList).length := by
    simp
  have hextra : ∀ p q : Prop, ∀ [Decidable p] [Decidable q],
      (if p then 1 else 0) + (if q then 1 else 0) = 0 ↔ ¬ p ∧ ¬ q := by
    intro p q _ _
    split <;> split <;> simp_all
  rw [occurrences_of_instrument h (Or.inr hangle), List.map_congr_left hshares, List.sum_map_add,
    hone, ← occurrences_eq_zero (markerHead_ne_nil sentinel)]
  simp only [← hextra]
  rw [← List.forall_mem_map (P := (· = 0)), ← List.sum_eq_zero_iff_forall_eq_nat]
  omega

/-- What is counted in an instrumented stylesheet. -/
theorem countsMarkers_of_instrument (h : instrument sentinel file content = .ok text) :
    CountsMarkers sentinel file content text
      (occurrences (markerHead sentinel) text.toList) where
  length_lines := length_lines_of_instrument h
  count_eq := occurrences_of_instrument h
  share_eq := share_of_instrument h
  count_eq_iff := occurrences_eq_length_iff h

end

end StylesheetTrace.Stylesheet
