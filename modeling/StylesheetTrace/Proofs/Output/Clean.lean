import Mathlib.Data.List.Forall2
import StylesheetTrace.Proofs.Output.Split

/-!
# The clean output of any text

Whatever the raw output is, its split is in order: no line of the clean output holds a line end, so
that it has as many lines as there are parts between its line feeds (`splitOn_text`), and the trace
entries stand in the order of their lines, each on a line of the clean output (`entries_of_split`).
Only a line number that is too long keeps it from being split (`hasResult_split`).
-/

namespace StylesheetTrace.Output

open StylesheetTrace.Text

/-! ## Lines -/

/-- A marker that is cut off is taken out with all that stands behind it. -/
theorem erase_danglingMarker_isPrefix (sentinel s : List Char) :
    erase (danglingMarker? sentinel) s <+: s := by
  have hr := (@advances_danglingMarker sentinel).reduces
  induction s using scan_induction hr with
  | nil => exact List.nil_prefix
  | plain c s h ih =>
    rw [erase_cons_of_none h]
    exact List.cons_prefix_cons.mpr ⟨rfl, ih⟩
  | form s a rest h ih =>
    obtain ⟨t, -, hrest⟩ := Option.bind_eq_some_iff.mp h
    split at hrest
    · exact absurd hrest (by simp)
    · obtain ⟨-, rfl⟩ := Prod.mk.inj (Option.some.inj hrest)
      rw [erase_of_some hr h]
      exact List.nil_prefix

/-- Apart from a marker that is cut off, the comments that begin like a marker are taken out. -/
theorem cleaned_isPrefix (sentinel : List Char) (isLast : Bool) (line : List Char) :
    cleaned sentinel isLast line <+: erase (markerComment? sentinel) line := by
  unfold cleaned
  split
  · exact erase_danglingMarker_isPrefix sentinel _
  · exact List.prefix_refl _

/-- Taking out markers leaves a part of the line. -/
theorem cleaned_sublist (sentinel : List Char) (isLast : Bool) (line : List Char) :
    (cleaned sentinel isLast line).Sublist line :=
  (cleaned_isPrefix sentinel isLast line).sublist.trans (erase_sublist advances_markerComment line)

/-- Taking out markers adds no character to a line. -/
theorem cleaned_subset (sentinel : List Char) (isLast : Bool) (line : List Char) :
    cleaned sentinel isLast line ⊆ line :=
  (cleaned_sublist sentinel isLast line).subset

/-- A line that is kept is the raw line without its markers. -/
theorem kept_of_partOf {sentinel line : List Char} {isLast : Bool} {p : Part}
    (h : partOf sentinel isLast line = .ok p) :
    ∀ text ∈ p.kept, text = String.ofList (cleaned sentinel isLast line) := by
  obtain ⟨origins, -, hp⟩ := bind_eq_ok.mp h
  obtain rfl := Except.ok.inj hp
  intro text htext
  simp only [Option.mem_def] at htext
  split at htext
  · exact absurd htext (by simp)
  · exact (Option.some.inj htext).symm

/-- A line is kept when nothing is taken out of it, or more is left than blanks. -/
theorem kept_eq_some_of_partOf {sentinel line : List Char} {isLast : Bool} {p : Part}
    (h : partOf sentinel isLast line = .ok p)
    (hkept : cleaned sentinel isLast line = line ∨
      ∃ c ∈ cleaned sentinel isLast line, isBlank c = false) :
    p.kept = some (String.ofList (cleaned sentinel isLast line)) := by
  obtain ⟨origins, -, hp⟩ := bind_eq_ok.mp h
  obtain rfl := Except.ok.inj hp
  have hcond : ¬ (cleaned sentinel isLast line != line &&
      (cleaned sentinel isLast line).all isBlank) = true := by
    rw [Bool.and_eq_true, bne_iff_ne, List.all_eq_true]
    rintro ⟨hne, hall⟩
    rcases hkept with heq | ⟨c, hc, hblank⟩
    · exact hne heq
    · exact absurd (hblank.symm.trans (hall c hc)) (by decide)
  exact if_neg hcond

/-- The last line is read apart from those before it. -/
theorem dropLast_append_last {α : Type} (ls : List α) : ls.dropLast ++ ls.getLast?.toList = ls := by
  cases hlast : ls.getLast? with
  | none => simp [List.getLast?_eq_none_iff.mp hlast]
  | some line => exact List.dropLast_append_getLast? line hlast

/-- The parts are what the lines yield, one by one. -/
theorem forall₂_partsOf {sentinel : List Char} {ls : List (List Char)} {parts : List Part}
    (h : partsOf sentinel ls = .ok parts) :
    List.Forall₂ (fun line p => ∃ isLast, partOf sentinel isLast line = .ok p) ls parts := by
  obtain ⟨firsts, hfirsts, h⟩ := bind_eq_ok.mp h
  obtain ⟨lasts, hlasts, h⟩ := bind_eq_ok.mp h
  obtain rfl := Except.ok.inj h
  rw [← dropLast_append_last ls]
  refine List.rel_append ?_ ?_
  · exact (forall₂_mapM_eq_ok hfirsts).imp fun line p hpart => ⟨false, hpart⟩
  · exact (forall₂_mapM_eq_ok hlasts).imp fun line p hpart => ⟨true, hpart⟩

/-- The parts of lines and a last one: only that one is read as the last. -/
theorem partsOf_concat {sentinel : List Char} {ls : List (List Char)} {l : List Char}
    {parts : List Part} : partsOf sentinel (ls ++ [l]) = .ok parts ↔
      ∃ ps p, ls.mapM (partOf sentinel false) = .ok ps ∧ partOf sentinel true l = .ok p ∧
        parts = ps ++ [p] := by
  unfold partsOf
  rw [List.dropLast_concat, List.getLast?_concat, Option.toList_some, List.mapM_cons, List.mapM_nil,
    bind_eq_ok]
  refine exists_congr fun ps => ?_
  cases partOf sentinel true l <;> simp [bind, Except.bind, pure, Except.pure, eq_comm]

/-- A part is what one of the lines yields. -/
theorem exists_of_mem_partsOf {sentinel : List Char} {ls : List (List Char)} {parts : List Part}
    (h : partsOf sentinel ls = .ok parts) {p : Part} (hp : p ∈ parts) :
    ∃ line ∈ ls, ∃ isLast, partOf sentinel isLast line = .ok p := by
  obtain ⟨firsts, hfirsts, h⟩ := bind_eq_ok.mp h
  obtain ⟨lasts, hlasts, h⟩ := bind_eq_ok.mp h
  obtain rfl := Except.ok.inj h
  rcases List.mem_append.mp hp with hp | hp
  · obtain ⟨line, hline, hpart⟩ := (mem_mapM_eq_ok hfirsts).mp hp
    exact ⟨line, List.dropLast_subset _ hline, false, hpart⟩
  · obtain ⟨line, hline, hpart⟩ := (mem_mapM_eq_ok hlasts).mp hp
    exact ⟨line, List.mem_of_getLast? (Option.mem_toList.mp hline), true, hpart⟩

/-- A split is made of the parts of the raw lines. -/
theorem exists_of_split {sentinel raw : String} {s : Split} (h : split sentinel raw = .ok s) :
    ∃ parts, partsOf sentinel.toList (Text.lines raw.toList) = .ok parts ∧
      s.kept = parts.filterMap Part.kept ∧
      s.entries = (numbered parts).filter fun e => e.outputLine ≤ s.kept.length := by
  obtain ⟨parts, hparts, rfl⟩ := map_eq_ok.mp h
  exact ⟨parts, hparts, rfl, rfl⟩

/-- No line of the clean output holds a line feed. -/
theorem feed_not_mem_kept {sentinel raw : String} {s : Split} (h : split sentinel raw = .ok s) :
    ∀ l ∈ s.kept, '\n' ∉ l.toList := by
  obtain ⟨parts, hparts, hlines, -⟩ := exists_of_split h
  intro l hl
  rw [hlines] at hl
  obtain ⟨p, hp, hkept⟩ := List.mem_filterMap.mp hl
  obtain ⟨line, hline, isLast, hpart⟩ := exists_of_mem_partsOf hparts hp
  rw [kept_of_partOf hpart l hkept, String.toList_ofList]
  intro hmem
  exact (infix_of_mem_lines hline).2 (cleaned_subset _ _ _ hmem)

/-- The lines of the clean output are the parts between its line feeds. -/
theorem splitOn_text {sentinel raw : String} {s : Split} (h : split sentinel raw = .ok s) :
    splitOn '\n' s.text.toList = s.lines.map String.toList := by
  have hfeed := feed_not_mem_kept h
  have hkept : (s.kept.map String.toList).map String.ofList = s.kept := by
    rw [List.map_map]
    exact List.map_id'' (fun l => String.ofList_toList) s.kept
  unfold Split.lines Split.text
  rw [← hkept, toList_joinLines, hkept]
  split
  · -- Without a line the text is empty, and that is one part.
    rename_i hempty
    rw [List.isEmpty_iff.mp hempty]
    rfl
  · rename_i hne
    refine splitOn_intercalate (by simpa using hne) ?_
    exact List.forall_mem_map.mpr hfeed

/-- The number is that of a line of the clean output, counted from 1. -/
def Split.IsLine (s : Split) (k : Nat) : Prop :=
  1 ≤ k ∧ k ≤ (splitOn '\n' s.text.toList).length

instance (s : Split) (k : Nat) : Decidable (s.IsLine k) :=
  inferInstanceAs (Decidable (1 ≤ k ∧ _))

/-- The clean output has a first line. -/
theorem Split.isLine_one (s : Split) : s.IsLine 1 :=
  ⟨Nat.le_refl 1, List.length_pos_of_ne_nil (splitWhere_ne_nil _ _)⟩

/-- Every line that is kept is a line of the clean output. -/
theorem Split.length_kept_le (s : Split) : s.kept.length ≤ s.lines.length := by
  unfold Split.lines
  split
  · rename_i hempty
    rw [List.isEmpty_iff.mp hempty]
    exact Nat.zero_le _
  · exact Nat.le_refl _

/-- The number of lines that the clean output has. -/
theorem length_lines_of_split {sentinel raw : String} {s : Split} (h : split sentinel raw = .ok s) :
    (splitOn '\n' s.text.toList).length = s.lines.length := by
  rw [splitOn_text h, List.length_map]

/-! ## Entries -/

/-- The entries of the parts stand in the order of their lines, none before the line that comes
next. -/
theorem numberedFrom_sorted (i : Nat) (ps : List Part) :
    (numberedFrom i ps).Pairwise (fun d e => d.outputLine ≤ e.outputLine) ∧
      ∀ e ∈ numberedFrom i ps, i ≤ e.outputLine := by
  induction ps generalizing i with
  | nil => exact ⟨List.Pairwise.nil, List.forall_mem_nil _⟩
  | cons p ps ih =>
    -- The entries of the first part are all on line `i`, and the others are not before it.
    obtain ⟨hsorted, hle⟩ := ih (i + if p.kept.isSome then 1 else 0)
    have hhere : ∀ e ∈ p.origins.map fun o => (⟨i, o⟩ : TraceEntry), e.outputLine = i :=
      List.forall_mem_map.mpr fun o _ => rfl
    have hbehind : ∀ e ∈ numberedFrom (i + if p.kept.isSome then 1 else 0) ps,
        i ≤ e.outputLine := fun e he => Nat.le_trans (Nat.le_add_right i _) (hle e he)
    rw [numberedFrom]
    constructor
    · refine List.pairwise_append.mpr ⟨?_, hsorted, fun d hd e he => ?_⟩
      · refine List.pairwise_of_forall_mem_list fun d hd e he => ?_
        rw [hhere d hd, hhere e he]
      · rw [hhere d hd]
        exact hbehind e he
    · intro e he
      rcases List.mem_append.mp he with he | he
      · exact Nat.le_of_eq (hhere e he).symm
      · exact hbehind e he

/-- The trace entries of any raw output stand in the order of their lines, each on a line of the
clean output. -/
theorem entries_of_split {sentinel raw : String} {s : Split} (h : split sentinel raw = .ok s) :
    s.entries.Pairwise (fun d e => d.outputLine ≤ e.outputLine) ∧
      ∀ e ∈ s.entries, s.IsLine e.outputLine := by
  obtain ⟨parts, -, -, hentries⟩ := exists_of_split h
  obtain ⟨hsorted, hle⟩ := numberedFrom_sorted 1 parts
  rw [← numbered_eq] at hsorted hle
  rw [hentries]
  refine ⟨hsorted.filter _, fun e he => ?_⟩
  obtain ⟨hmem, hkept⟩ := List.mem_filter.mp he
  refine ⟨hle e hmem, Nat.le_trans (of_decide_eq_true hkept) ?_⟩
  rw [length_lines_of_split h]
  exact s.length_kept_le

/-! ## Line numbers -/

/-- The digits of the line number in each marker of a raw output. -/
def markerRows (sentinel raw : String) : List (List Char) :=
  (Text.lines raw.toList).flatMap fun line =>
    (collect (marker? sentinel.toList) line).map fun fields => fields.2.1

/-- A line is refused when the line number in one of its markers is too long. -/
theorem hasResult_partOf {sentinel : List Char} {isLast : Bool} {line : List Char} :
    HasResult (partOf sentinel isLast line) ↔
      ∀ fields ∈ collect (marker? sentinel) line, fields.2.1.length ≤ TooLong.limit := by
  unfold partOf
  rw [hasResult_bind_pure, hasResult_mapM]
  refine forall₂_congr fun fields _ => ?_
  rw [originOf?, hasResult_map, hasResult_readDigits]

/-- The lines are refused when one of them is, the last being read like the others. -/
theorem hasResult_partsOf {sentinel : List Char} {ls : List (List Char)} :
    HasResult (partsOf sentinel ls) ↔
      ∀ line ∈ ls, ∀ fields ∈ collect (marker? sentinel) line,
        fields.2.1.length ≤ TooLong.limit := by
  -- The last line is read apart from those before it, but for its markers in the same way.
  have hparts : HasResult (partsOf sentinel ls) ↔
      HasResult (ls.dropLast.mapM (partOf sentinel false)) ∧
        HasResult (ls.getLast?.toList.mapM (partOf sentinel true)) := by
    unfold partsOf
    rw [hasResult_bind]
    simp only [hasResult_bind_pure]
    exact exists_and_right
  rw [hparts, hasResult_mapM, hasResult_mapM]
  simp only [hasResult_partOf]
  rw [← List.forall_mem_append, dropLast_append_last]

/-- A raw output is split unless the line number in one of its markers is too long. -/
theorem hasResult_split {sentinel raw : String} :
    HasResult (split sentinel raw) ↔
      ∀ ds ∈ markerRows sentinel raw, ds.length ≤ TooLong.limit := by
  rw [split, hasResult_map, hasResult_partsOf]
  simp only [markerRows, List.forall_mem_flatMap, List.forall_mem_map]

end StylesheetTrace.Output
