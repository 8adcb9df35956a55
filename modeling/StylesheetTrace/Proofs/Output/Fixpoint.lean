import StylesheetTrace.Proofs.Output.Clean

/-!
# Splitting the clean output again

A marker that is cut off is taken out of the last raw line only. So a clean output may end with one:
an earlier line holds it, and all lines behind vanish. Splitting the clean output again then takes
it out. Where no line of the clean output but the last ends with a carriage return and none holds a
whole marker, this is the only way in which a second split can differ from the first
(`isFixed_iff`). It takes markers or carriage returns that stand close together in the raw output
for one of these to be left (`plain_of_parted`).
-/

namespace StylesheetTrace.Output

open StylesheetTrace.Text

/-- Splitting the clean output again leaves it as it is and finds no entry. -/
def Split.IsFixed (sentinel : String) (s : Split) : Prop :=
  ∃ t, split sentinel s.text = .ok t ∧ t.text = s.text ∧ t.entries = []

/-- The clean output is one that a split leaves as it is. -/
structure Split.Plain (sentinel : String) (s : Split) : Prop where
  /-- No line but the last ends with a carriage return. -/
  returns : ∀ l ∈ s.kept.dropLast, l.toList.getLast? ≠ some '\r'
  /-- No line holds a whole marker. -/
  closed : ∀ l ∈ s.kept, hasForm (markerComment? sentinel.toList) l.toList = false

/-- The last line of the clean output holds a marker that is cut off. -/
def Split.EndsOpen (sentinel : String) (s : Split) : Prop :=
  ∃ l ∈ s.kept.getLast?, hasForm (danglingMarker? sentinel.toList) l.toList = true

/-! ## Lines without markers -/

section

variable {sentinel : List Char}

/-- Where a comment that begins like a marker is read, its end follows. -/
theorem markerComment?_isSome {s : List Char} : (markerComment? sentinel s).isSome = true ↔
    ∃ t, s = markerStart sentinel ++ t ∧ commentEnd <:+: t := by
  rw [Option.isSome_iff_exists]
  constructor
  · rintro ⟨⟨a, rest⟩, h⟩
    obtain ⟨t, rfl, hfirst⟩ := markerComment?_eq_some.mp h
    exact ⟨t, rfl, occurs_iff.mp (by rw [occurs, hfirst]; rfl)⟩
  · rintro ⟨t, rfl, hend⟩
    obtain ⟨x, hx, -⟩ := afterFirst?_append_of_infix hend []
    exact ⟨((), x), markerComment?_eq_some.mpr ⟨t, rfl, by simpa using hx⟩⟩

/-- A marker that is cut off is read where no end of a comment follows. -/
theorem danglingMarker?_isSome {s : List Char} : (danglingMarker? sentinel s).isSome = true ↔
    ∃ t, s = markerStart sentinel ++ t ∧ ¬ commentEnd <:+: t := by
  unfold danglingMarker?
  constructor
  · intro h
    obtain ⟨found, hfound⟩ := Option.isSome_iff_exists.mp h
    obtain ⟨t, ht, hread⟩ := Option.bind_eq_some_iff.mp hfound
    refine ⟨t, after?_eq_some.mp ht, fun hend => ?_⟩
    rw [if_pos (occurs_iff.mpr hend)] at hread
    exact absurd hread (by simp)
  · rintro ⟨t, rfl, hend⟩
    rw [after?_append]
    simp [occurs_eq_false.mpr hend]

/-- The end of a comment decides what is read where a marker begins. -/
theorem danglingMarker?_append_eq_none {t : List Char} :
    danglingMarker? sentinel (markerStart sentinel ++ t) = none ↔ commentEnd <:+: t := by
  rw [← Option.not_isSome_iff_eq_none, danglingMarker?_isSome]
  simp

/-- The end of a comment decides what is read where a marker begins. -/
theorem markerComment?_append_eq_none {t : List Char} :
    markerComment? sentinel (markerStart sentinel ++ t) = none ↔ ¬ commentEnd <:+: t := by
  rw [← Option.not_isSome_iff_eq_none, markerComment?_isSome]
  simp

/-- Where a marker is read, so is a comment. -/
theorem markerComment?_isSome_of_marker? {s : List Char} (h : (marker? sentinel s).isSome = true) :
    (markerComment? sentinel s).isSome = true := by
  obtain ⟨⟨⟨file, row, element⟩, rest⟩, hmarker⟩ := Option.isSome_iff_exists.mp h
  obtain ⟨rfl, -⟩ := marker?_eq_some.mp hmarker
  refine markerComment?_isSome.mpr ⟨_, rfl, file ++ '|' :: (row ++ '|' :: element), rest, ?_⟩
  simp

/-- A line without a whole marker yields no place. -/
theorem collect_marker_of_closed {line : List Char}
    (h : hasForm (markerComment? sentinel) line = false) :
    collect (marker? sentinel) line = [] := by
  rw [← hasForm_eq_false_iff reduces_marker, ← Bool.not_eq_true, hasForm_iff]
  rintro ⟨u, hu, hread⟩
  exact Bool.eq_false_iff.mp h (hasForm_iff.mpr ⟨u, hu, markerComment?_isSome_of_marker? hread⟩)

/-- A line without a whole marker, and on the last line without one that is cut off, is kept as it
stands. -/
theorem partOf_of_closed {isLast : Bool} {line : List Char}
    (h : hasForm (markerComment? sentinel) line = false)
    (hopen : isLast = true → hasForm (danglingMarker? sentinel) line = false) :
    partOf sentinel isLast line = .ok ⟨[], some (String.ofList line)⟩ := by
  refine partOf_of_clean (collect_marker_of_closed h) ?_
  unfold cleaned
  rw [(erase_eq_self_iff reduces_markerComment).mpr h]
  split
  · rename_i hlast
    exact (erase_eq_self_iff advances_danglingMarker.reduces).mpr (hopen hlast)
  · rfl

/-- A line that is left as it stands when it is the last holds no marker that is cut off. -/
theorem hasForm_of_cleaned {line : List Char} (h : cleaned sentinel true line = line) :
    hasForm (danglingMarker? sentinel) line = false := by
  rw [cleaned, if_pos rfl] at h
  have hprefix := erase_danglingMarker_isPrefix sentinel (erase (markerComment? sentinel) line)
  have hsub := erase_sublist (@advances_markerComment sentinel) line
  rw [h] at hprefix
  have hclosed : erase (markerComment? sentinel) line = line :=
    hsub.eq_of_length_le hprefix.length_le
  rw [hclosed] at h
  exact (erase_eq_self_iff advances_danglingMarker.reduces).mp h

end

/-! ## The second split -/

/-- The lines of the clean output are those that are kept, or one that is empty. -/
theorem Split.lines_cases (s : Split) : s.lines = s.kept ∨ s.kept = [] ∧ s.lines = [""] := by
  unfold Split.lines
  split
  · rename_i hempty
    exact Or.inr ⟨List.isEmpty_iff.mp hempty, rfl⟩
  · exact Or.inl rfl

/-- The clean output has a line. -/
theorem Split.lines_ne_nil (s : Split) : s.lines ≠ [] := by
  unfold Split.lines
  split
  · exact List.cons_ne_nil _ _
  · rename_i hne
    simpa using hne

/-- The clean output is the join of its lines. -/
theorem Split.joinLines_lines (s : Split) : joinLines s.lines = s.text := by
  unfold Split.text
  rcases s.lines_cases with hlines | ⟨hkept, hlines⟩
  · rw [hlines]
  · rw [hlines, hkept]
    decide

/-- The lines of a clean output without carriage returns before its line feeds. -/
theorem lines_text {sentinel raw : String} {s : Split} (h : split sentinel raw = .ok s)
    (hreturns : ∀ l ∈ s.kept.dropLast, l.toList.getLast? ≠ some '\r') :
    Text.lines s.text.toList = s.lines.map String.toList := by
  have hofList : (s.lines.map String.toList).map String.ofList = s.lines := by
    rw [List.map_map]
    exact List.map_id'' (fun l => String.ofList_toList) s.lines
  rw [← s.joinLines_lines, ← hofList, toList_joinLines, hofList]
  rcases s.lines_cases with hlines | ⟨-, hlines⟩
  · refine lines_join (by simpa using s.lines_ne_nil) ?_ ?_
    · rw [hlines]
      exact List.forall_mem_map.mpr (feed_not_mem_kept h)
    · rw [← List.map_dropLast, hlines]
      exact List.forall_mem_map.mpr hreturns
  · rw [hlines]
    rfl

/-- Parts without places have no entries. -/
theorem numberedFrom_eq_nil {i : Nat} {ps : List Part} (h : ∀ p ∈ ps, p.origins = []) :
    numberedFrom i ps = [] := by
  induction ps generalizing i with
  | nil => rfl
  | cons p ps ih =>
    rw [numberedFrom, h p List.mem_cons_self, ih fun q hq => h q (List.mem_cons_of_mem p hq)]
    rfl

/-- A clean output without a marker that is cut off at its end is left as it is. -/
theorem isFixed_of_not_endsOpen {sentinel raw : String} {s : Split}
    (h : split sentinel raw = .ok s) (hplain : s.Plain sentinel) (hopen : ¬ s.EndsOpen sentinel) :
    s.IsFixed sentinel := by
  have hclosed : ∀ l ∈ s.lines, hasForm (markerComment? sentinel.toList) l.toList = false := by
    intro l hl
    rcases s.lines_cases with hlines | ⟨-, hlines⟩
    · exact hplain.closed l (hlines ▸ hl)
    · obtain rfl := List.mem_singleton.mp (hlines ▸ hl)
      exact (hasForm_eq_false_iff reduces_markerComment).mpr rfl
  have hend : ∀ l ∈ s.lines.getLast?,
      hasForm (danglingMarker? sentinel.toList) l.toList = false := by
    intro l hl
    rcases s.lines_cases with hlines | ⟨-, hlines⟩
    · exact Bool.eq_false_iff.mpr fun hform => hopen ⟨l, hlines ▸ hl, hform⟩
    · obtain rfl : "" = l := by simpa [hlines] using hl
      exact (hasForm_eq_false_iff advances_danglingMarker.reduces).mpr rfl
  -- So every line is kept as it stands, and none yields a place.
  have hparts : partsOf sentinel.toList (s.lines.map String.toList) =
      .ok (s.lines.map fun l => ⟨[], some l⟩) := by
    refine partsOf_map (fun l hl => ?_) (fun l hl => ?_)
    · rw [partOf_of_closed (hclosed l hl) (fun hlast => absurd hlast (by decide)),
        String.ofList_toList]
    · rw [partOf_of_closed (hclosed l (List.mem_of_getLast? hl)) (fun _ => hend l hl),
        String.ofList_toList]
  have hkept : (s.lines.map fun l => (⟨[], some l⟩ : Part)).filterMap Part.kept = s.lines := by
    rw [List.filterMap_map]
    exact List.filterMap_some
  have hentries : numbered (s.lines.map fun l => (⟨[], some l⟩ : Part)) = [] := by
    rw [numbered_eq]
    exact numberedFrom_eq_nil (List.forall_mem_map.mpr fun _ _ => rfl)
  refine ⟨⟨s.lines, []⟩, ?_, s.joinLines_lines, rfl⟩
  rw [split, lines_text h hplain.returns, hparts]
  simp [Except.map, hkept, hentries]

/-- A clean output with a marker that is cut off at its end loses it. -/
theorem not_isFixed_of_endsOpen {sentinel raw : String} {s : Split}
    (h : split sentinel raw = .ok s) (hplain : s.Plain sentinel) (hopen : s.EndsOpen sentinel) :
    ¬ s.IsFixed sentinel := by
  obtain ⟨l, hl, hform⟩ := hopen
  rintro ⟨t, ht, htext, -⟩
  have hkept : s.kept.dropLast ++ [l] = s.kept := List.dropLast_append_getLast? l hl
  have hlines : s.lines = s.kept.dropLast ++ [l] := by
    rcases s.lines_cases with hlines | ⟨hempty, -⟩
    · rw [hlines, hkept]
    · rw [hempty] at hl
      exact absurd hl (by simp)
  -- The clean outputs have the same lines, one by one.
  have hsame : t.lines = s.lines := by
    refine List.map_injective_iff.mpr (fun _ _ => String.toList_injective) ?_
    rw [← splitOn_text h, ← splitOn_text ht, htext]
  obtain ⟨parts, hparts, htkept, -⟩ := exists_of_split ht
  rw [lines_text h hplain.returns, hlines, List.map_append, List.map_singleton,
    partsOf_concat] at hparts
  obtain ⟨ps, p, hps, hp, rfl⟩ := hparts
  have hlen : (ps.filterMap Part.kept).length ≤ s.kept.dropLast.length := by
    have hsize := (forall₂_mapM_eq_ok hps).length_eq
    rw [List.length_map] at hsize
    rw [hsize]
    exact List.length_filterMap_le _ _
  rw [List.filterMap_append] at htkept
  rcases t.lines_cases with htlines | ⟨-, htlines⟩
  · rw [hlines, htlines, htkept] at hsame
    cases hlast : p.kept with
    | none =>
      -- One line fewer would be kept.
      have hcount := congrArg List.length hsame
      simp only [List.filterMap_cons_none hlast, List.filterMap_nil, List.append_nil,
        List.length_append, List.length_singleton] at hcount
      omega
    | some x =>
      rw [List.filterMap_cons_some hlast, List.filterMap_nil] at hsame
      obtain ⟨-, hx⟩ := List.append_inj' hsame rfl
      obtain rfl : x = l := List.cons.inj hx |>.1
      have hclean := congrArg String.toList (kept_of_partOf hp x hlast)
      rw [String.toList_ofList] at hclean
      exact absurd (hform.symm.trans (hasForm_of_cleaned hclean.symm)) (by decide)
  · -- An empty line holds no marker.
    obtain ⟨-, hempty⟩ : s.kept.dropLast = [] ∧ l = "" := by
      rw [hlines, htlines, ← List.nil_append [""]] at hsame
      obtain ⟨hinit, hx⟩ := List.append_inj' hsame rfl
      exact ⟨hinit.symm, (List.cons.inj hx).1.symm⟩
    rw [hempty] at hform
    have hnone := (hasForm_eq_false_iff (@advances_danglingMarker sentinel.toList).reduces
      (s := "".toList)).mpr rfl
    exact absurd (hform.symm.trans hnone) (by decide)

/-- Where the clean output is plain, a second split leaves it as it is exactly when it does not end
with a marker that is cut off. -/
theorem isFixed_iff {sentinel raw : String} {s : Split} (h : split sentinel raw = .ok s)
    (hplain : s.Plain sentinel) : s.IsFixed sentinel ↔ ¬ s.EndsOpen sentinel :=
  ⟨fun hfixed hopen => not_isFixed_of_endsOpen h hplain hopen hfixed,
    isFixed_of_not_endsOpen h hplain⟩

/-! ## Raw outputs whose clean output is plain -/

/-- In the raw output markers do not get in the way of each other or of line ends. -/
structure Parted (sentinel raw : String) : Prop where
  /-- No marker begins inside the beginning of another one. -/
  starts : ∀ line ∈ Text.lines raw.toList, ∀ u v, markerStart sentinel.toList = u ++ v →
    u ≠ [] → v ≠ [] → ¬ u ++ markerStart sentinel.toList <:+: line
  /-- No line but the last has a carriage return at its end or before a marker. -/
  returns : ∀ line ∈ (Text.lines raw.toList).dropLast,
    line.getLast? ≠ some '\r' ∧ ¬ '\r' :: markerStart sentinel.toList <:+: line

/-- Every marker that begins on a line of the raw output before the last one ends there. -/
def Closed (sentinel raw : String) : Prop :=
  ∀ line ∈ (Text.lines raw.toList).dropLast, ∀ t, markerStart sentinel.toList ++ t <:+ line →
    commentEnd <:+: t

section

variable {sentinel line : List Char}

/-- A whole marker in the beginning of a line is one of the line. -/
theorem hasForm_of_isPrefix {s t : List Char} (h : s <+: t)
    (hform : hasForm (markerComment? sentinel) s = true) :
    hasForm (markerComment? sentinel) t = true := by
  obtain ⟨w, rfl⟩ := h
  obtain ⟨u, ⟨v, rfl⟩, hread⟩ := hasForm_iff.mp hform
  obtain ⟨x, rfl, hend⟩ := markerComment?_isSome.mp hread
  refine hasForm_iff.mpr ⟨markerStart sentinel ++ (x ++ w), ⟨v, by simp⟩, ?_⟩
  exact markerComment?_isSome.mpr ⟨_, rfl, hend.trans (List.prefix_append x w).isInfix⟩

/-- Without a marker that is cut off, none is left, if every marker is cut off. -/
theorem hasForm_erase_danglingMarker (h : hasForm (markerComment? sentinel) line = false) :
    hasForm (danglingMarker? sentinel) (erase (danglingMarker? sentinel) line) = false := by
  rw [← Bool.not_eq_true, hasForm_iff]
  rintro ⟨u, hu, hread⟩
  obtain ⟨t, rfl, -⟩ := danglingMarker?_isSome.mp hread
  obtain ⟨y, hy, hnone, hrest⟩ := exists_of_suffix_erase advances_danglingMarker hu
    (by simp [markerStart])
  -- The marker begins where none was cut off, so that it has an end.
  obtain ⟨w, hw⟩ := hrest ▸ erase_danglingMarker_isPrefix sentinel y
  rw [List.append_assoc] at hw
  have hend : commentEnd <:+: t ++ w := danglingMarker?_append_eq_none.mp (hw.symm ▸ hnone)
  have hsome := hasForm_iff.mpr ⟨y, hy, markerComment?_isSome.mpr ⟨_, hw.symm, hend⟩⟩
  exact absurd (h.symm.trans hsome) (by decide)

variable (hstarts : ∀ u v, markerStart sentinel = u ++ v → u ≠ [] → v ≠ [] →
  ¬ u ++ markerStart sentinel <:+: line)

include hstarts in
/-- What begins like a marker in a line without its comments begins so in the line, and has no
end. -/
theorem open_of_suffix_erase {t : List Char}
    (h : markerStart sentinel ++ t <:+ erase (markerComment? sentinel) line) :
    markerStart sentinel ++ t <:+ line ∧ ¬ commentEnd <:+: t := by
  obtain ⟨y, hy, hnone, hrest⟩ := exists_of_suffix_erase advances_markerComment h
    (by simp [markerStart])
  rcases prefix_of_prefix_erase (hrest ▸ List.prefix_append _ t) with
    ⟨w, rfl⟩ | ⟨u, v, z, hword, hv, rfl, hform⟩
  · -- No comment begins at the marker, so that no end of one stands behind it.
    have hopen : ¬ commentEnd <:+: w := markerComment?_append_eq_none.mp hnone
    have hself : erase (markerComment? sentinel) (markerStart sentinel ++ w) =
        markerStart sentinel ++ w := by
      rw [erase_eq_self_iff reduces_markerComment, ← Bool.not_eq_true, hasForm_iff]
      rintro ⟨u, hu, hread⟩
      obtain ⟨x, rfl, hend⟩ := markerComment?_isSome.mp hread
      have hlen := hu.length_le
      rw [List.length_append, List.length_append] at hlen
      have hx : x <:+ w := List.suffix_of_suffix_length_le
        ((List.suffix_append _ x).trans hu) (List.suffix_append _ w) (by omega)
      exact hopen (hend.trans hx.isInfix)
    rw [hself] at hrest
    obtain rfl := List.append_cancel_left hrest
    exact ⟨hy, hopen⟩
  · -- The marker is put together at the place of a comment, which begins inside its beginning.
    obtain ⟨x, rfl, -⟩ := markerComment?_isSome.mp hform
    have hu : u ≠ [] := by
      rintro rfl
      rw [List.nil_append] at hnone
      rw [hnone] at hform
      exact absurd hform (by decide)
    refine absurd ?_ (hstarts u v hword hu hv)
    refine List.IsInfix.trans ?_ hy.isInfix
    exact ⟨[], x, by simp⟩

include hstarts in
/-- No whole marker is left in a line. -/
theorem hasForm_cleaned (isLast : Bool) :
    hasForm (markerComment? sentinel) (cleaned sentinel isLast line) = false := by
  rw [← Bool.not_eq_true]
  intro hform
  obtain ⟨u, hu, hread⟩ :=
    hasForm_iff.mp (hasForm_of_isPrefix (cleaned_isPrefix sentinel isLast line) hform)
  obtain ⟨t, rfl, hend⟩ := markerComment?_isSome.mp hread
  exact (open_of_suffix_erase hstarts hu).2 hend

end

/-- What is kept of the raw lines before the last, and then what is kept of the last one. -/
theorem exists_of_kept {sentinel raw : String} {s : Split} (h : split sentinel raw = .ok s) :
    ∃ (firsts : List String) (last : Option String), s.kept = firsts ++ last.toList ∧
      (∀ l ∈ firsts, ∃ line ∈ (Text.lines raw.toList).dropLast,
        l.toList = cleaned sentinel.toList false line) ∧
      ∀ l ∈ last, ∃ line ∈ Text.lines raw.toList, l.toList = cleaned sentinel.toList true line := by
  obtain ⟨parts, hparts, hkept, -⟩ := exists_of_split h
  rw [← List.dropLast_append_getLast (lines_ne_nil raw.toList), partsOf_concat] at hparts
  obtain ⟨ps, p, hps, hp, rfl⟩ := hparts
  have hlast : [p].filterMap Part.kept = p.kept.toList := by
    cases hkept : p.kept <;> simp [hkept]
  rw [List.filterMap_append, hlast] at hkept
  refine ⟨_, _, hkept, fun l hl => ?_, fun l hl => ?_⟩
  · obtain ⟨q, hq, hl⟩ := List.mem_filterMap.mp hl
    obtain ⟨line, hline, hpart⟩ := (mem_mapM_eq_ok hps).mp hq
    exact ⟨line, hline, by rw [kept_of_partOf hpart l hl, String.toList_ofList]⟩
  · exact ⟨_, List.getLast_mem (lines_ne_nil _), by
      rw [kept_of_partOf hp l hl, String.toList_ofList]⟩

/-- The clean output of a raw output in which markers and carriage returns stand apart is plain. -/
theorem plain_of_parted {sentinel raw : String} {s : Split} (h : split sentinel raw = .ok s)
    (hparted : Parted sentinel raw) : s.Plain sentinel := by
  obtain ⟨firsts, last, hkept, hfirsts, hlast⟩ := exists_of_kept h
  constructor
  case returns =>
    intro l hl hreturn
    have hmem : l ∈ firsts := by
      rw [hkept] at hl
      cases last with
      | none => exact List.dropLast_subset _ (by simpa using hl)
      | some z => simpa using hl
    obtain ⟨line, hline, hclean⟩ := hfirsts l hmem
    obtain ⟨hend, hbefore⟩ := hparted.returns line hline
    rw [hclean, cleaned, if_neg Bool.false_ne_true] at hreturn
    obtain ⟨u, v, rfl, hv⟩ := exists_of_getLast?_erase advances_markerComment hreturn
    rcases hv with rfl | hform
    · exact hend (by simp)
    · obtain ⟨t, rfl, -⟩ := markerComment?_isSome.mp hform
      exact hbefore ⟨u, t, by simp⟩
  case closed =>
    intro l hl
    rw [hkept, List.mem_append] at hl
    rcases hl with hl | hl
    · obtain ⟨line, hline, hclean⟩ := hfirsts l hl
      rw [hclean]
      exact hasForm_cleaned (hparted.starts line (List.dropLast_subset _ hline)) false
    · obtain ⟨line, hline, hclean⟩ := hlast l (Option.mem_toList.mp hl)
      rw [hclean]
      exact hasForm_cleaned (hparted.starts line hline) true

/-- If moreover every marker that begins before the last line ends on its line, the clean output
does not end with one that is cut off. -/
theorem not_endsOpen_of_closed {sentinel raw : String} {s : Split}
    (h : split sentinel raw = .ok s) (hparted : Parted sentinel raw)
    (hclosed : Closed sentinel raw) : ¬ s.EndsOpen sentinel := by
  obtain ⟨firsts, last, hkept, hfirsts, hlast⟩ := exists_of_kept h
  rintro ⟨l, hl, hform⟩
  have hmem : l ∈ firsts ++ last.toList := hkept ▸ List.mem_of_getLast? hl
  rcases List.mem_append.mp hmem with hl | hl
  · obtain ⟨line, hline, hclean⟩ := hfirsts l hl
    rw [hclean, cleaned, if_neg Bool.false_ne_true] at hform
    obtain ⟨u, hu, hread⟩ := hasForm_iff.mp hform
    obtain ⟨t, rfl, -⟩ := danglingMarker?_isSome.mp hread
    obtain ⟨hsuffix, hopen⟩ :=
      open_of_suffix_erase (hparted.starts line (List.dropLast_subset _ hline)) hu
    exact hopen (hclosed line hline t hsuffix)
  · obtain ⟨line, hline, hclean⟩ := hlast l (Option.mem_toList.mp hl)
    rw [hclean, cleaned, if_pos rfl] at hform
    have hplain := hasForm_cleaned (hparted.starts line hline) false
    rw [cleaned, if_neg Bool.false_ne_true] at hplain
    exact absurd (hform.symm.trans (hasForm_erase_danglingMarker hplain)) (by decide)

/-- A clean output that is plain is left as it is by a second split, with no entry, exactly when it
does not end with a marker that is cut off. It is plain when markers and carriage returns stand
apart in the raw output, and does not end so when moreover every marker that begins before the last
line ends on its line. -/
theorem isFixed_of_split {sentinel raw : String} {s : Split} (h : split sentinel raw = .ok s) :
    (s.Plain sentinel → (s.IsFixed sentinel ↔ ¬ s.EndsOpen sentinel)) ∧
      (Parted sentinel raw → s.Plain sentinel ∧
        (Closed sentinel raw → ¬ s.EndsOpen sentinel)) :=
  ⟨isFixed_iff h, fun hparted => ⟨plain_of_parted h hparted, not_endsOpen_of_closed h hparted⟩⟩

/-- A raw output with line ends of two kinds, a marker on a line of its own, a comment that begins
like a marker, and a marker that is cut off at the end. -/
def twoLineSample : String :=
  "<a><!--T|note-->\r\n<!--T|f.xsl|2|b-->\n<b/><!--T|f.x"

/-- The clean output of the sample is left as it is by a second split. -/
theorem isFixed_of_split_twoLineSample :
    split "T" twoLineSample = .ok ⟨["<a>", "<b/>"], [⟨2, "f.xsl", 2, "b"⟩]⟩ ∧
      Split.IsFixed "T" ⟨["<a>", "<b/>"], [⟨2, "f.xsl", 2, "b"⟩]⟩ := by
  have hsplit : split "T" twoLineSample = .ok ⟨["<a>", "<b/>"], [⟨2, "f.xsl", 2, "b"⟩]⟩ := by
    decide +kernel
  have hplain : Split.Plain "T" ⟨["<a>", "<b/>"], [⟨2, "f.xsl", 2, "b"⟩]⟩ :=
    ⟨by decide +kernel, by decide +kernel⟩
  refine ⟨hsplit, ((isFixed_of_split hsplit).1 hplain).mpr ?_⟩
  rintro ⟨l, hl, hform⟩
  obtain rfl : "<b/>" = l := by simpa using hl
  exact absurd hform (by decide +kernel)

/-- A raw output with a marker that is cut off on its first line, behind which the second line
vanishes. -/
def openSample : String :=
  "<!--XSLT-TRACE|x\n<!--XSLT-TRACE|f|1|a-->"

/-- The clean output of the sample is plain, but loses its only line by a second split. -/
theorem not_isFixed_openSample :
    ∃ s, split "XSLT-TRACE" openSample = .ok s ∧ s.Plain "XSLT-TRACE" ∧
      ¬ s.IsFixed "XSLT-TRACE" := by
  have hsplit : split "XSLT-TRACE" openSample = .ok ⟨["<!--XSLT-TRACE|x"], []⟩ := by
    decide +kernel
  have hplain : Split.Plain "XSLT-TRACE" ⟨["<!--XSLT-TRACE|x"], []⟩ :=
    ⟨by decide +kernel, by decide +kernel⟩
  refine ⟨_, hsplit, hplain, fun hfixed => ?_⟩
  refine (isFixed_iff hsplit hplain).mp hfixed ⟨"<!--XSLT-TRACE|x", rfl, ?_⟩
  decide +kernel

end StylesheetTrace.Output
