import StylesheetTrace.Proofs.Output.Clean

/-!
# Output that is cut off

The split of an output that was cut off agrees with that of the whole, but for the last line of what
is there (`split_take`). The cut may fall inside a marker or a line end; this shows only in the raw
line that it falls into, which yields the last of the clean lines or none. What the raw lines before
it yield is the same in both (`exists_of_partsOf_append`), and so is how their entries are counted.
-/

namespace StylesheetTrace.Output

open StylesheetTrace.Text

/-! ## Parts -/

/-- The lines that are kept of the parts. -/
def keptOf (ps : List Part) : List String := ps.filterMap Part.kept

/-- Lines that others follow yield the same whatever these are: none of them is the last. -/
theorem exists_of_partsOf_append {sentinel : List Char} {ls ms : List (List Char)} {l : List Char}
    {parts : List Part} (h : partsOf sentinel (ls ++ l :: ms) = .ok parts) :
    ∃ ps qs, ls.mapM (partOf sentinel false) = .ok ps ∧ parts = ps ++ qs ∧
      (ms = [] → qs.length = 1) := by
  obtain ⟨firsts, hfirsts, h⟩ := bind_eq_ok.mp h
  obtain ⟨lasts, hlasts, h⟩ := bind_eq_ok.mp h
  obtain rfl := Except.ok.inj h
  rw [List.dropLast_append_of_ne_nil (List.cons_ne_nil l ms), List.mapM_append] at hfirsts
  obtain ⟨ps, hps, hfirsts⟩ := bind_eq_ok.mp hfirsts
  obtain ⟨qs, hqs, hfirsts⟩ := bind_eq_ok.mp hfirsts
  obtain rfl := Except.ok.inj hfirsts
  refine ⟨ps, qs ++ lasts, hps, List.append_assoc ps qs lasts, ?_⟩
  rintro rfl
  -- The line alone is the last, so that no other is read as one before it.
  obtain rfl := Except.ok.inj hqs
  rw [List.getLast?_concat, Option.toList_some, List.mapM_cons, List.mapM_nil] at hlasts
  obtain ⟨p, -, hlasts⟩ := bind_eq_ok.mp hlasts
  obtain rfl := Except.ok.inj hlasts
  rfl

/-- The entries of parts one behind the other. -/
theorem numberedFrom_append (i : Nat) (ps qs : List Part) :
    numberedFrom i (ps ++ qs) =
      numberedFrom i ps ++ numberedFrom (i + (keptOf ps).length) qs := by
  induction ps generalizing i with
  | nil => rfl
  | cons p ps ih =>
    have hcount : i + (keptOf (p :: ps)).length =
        i + (if p.kept.isSome then 1 else 0) + (keptOf ps).length := by
      unfold keptOf
      rw [List.filterMap_cons]
      cases p.kept with
      | none => rfl
      | some line =>
        rw [Option.isSome_some, if_pos rfl, List.length_cons]
        omega
    rw [List.cons_append, numberedFrom, numberedFrom, ih, hcount, List.append_assoc]

/-- The clean lines and the entries before a line are those of the first parts, when these are kept
on all the lines before it. -/
theorem before_of_split {sentinel raw : String} {s : Split} (h : split sentinel raw = .ok s)
    {ps qs : List Part} (hparts : partsOf sentinel.toList (Text.lines raw.toList) = .ok (ps ++ qs))
    {n : Nat} (hn : n ≤ (keptOf ps).length) :
    s.lines.take n = (keptOf ps).take n ∧
      s.entries.filter (fun e => e.outputLine < n + 1) =
        (numbered ps).filter fun e => e.outputLine < n + 1 := by
  obtain ⟨parts, hsame, hkept, hentries⟩ := exists_of_split h
  obtain rfl : ps ++ qs = parts := Except.ok.inj (hparts.symm.trans hsame)
  rw [List.filterMap_append] at hkept
  change s.kept = keptOf ps ++ keptOf qs at hkept
  have hle : (keptOf ps).length ≤ s.kept.length := by
    rw [hkept, List.length_append]
    exact Nat.le_add_right _ _
  constructor
  · unfold Split.lines
    split
    · -- Nothing is kept, so that there is no line before.
      rename_i hempty
      rw [List.isEmpty_iff.mp hempty, List.length_nil] at hle
      obtain rfl : n = 0 := by omega
      rfl
    · rw [hkept, List.take_append_of_le_length hn]
  · -- An entry of a later part counts from a line behind those that the first parts keep.
    have hlater : (numberedFrom (1 + (keptOf ps).length) qs).filter
        (fun e => decide (e.outputLine < n + 1)) = [] := by
      refine List.filter_eq_nil_iff.mpr fun e he => ?_
      have hline := (numberedFrom_sorted _ qs).2 e he
      rw [decide_eq_true_iff]
      omega
    have hwithin : ∀ e : TraceEntry, (decide (e.outputLine < n + 1) &&
        decide (e.outputLine ≤ s.kept.length)) = decide (e.outputLine < n + 1) := by
      intro e
      rw [← Bool.decide_and, decide_eq_decide]
      omega
    rw [hentries, List.filter_filter]
    simp only [hwithin]
    rw [numbered_eq, numbered_eq, numberedFrom_append, List.filter_append, hlater, List.append_nil]

/-- Of parts that are followed by one more only the last clean line may be missing. -/
theorem length_lines_le {sentinel raw : String} {s : Split} (h : split sentinel raw = .ok s)
    {ps qs : List Part} (hparts : partsOf sentinel.toList (Text.lines raw.toList) = .ok (ps ++ qs))
    (hone : qs.length = 1) : s.lines.length ≤ (keptOf ps).length + 1 := by
  obtain ⟨parts, hsame, hkept, -⟩ := exists_of_split h
  obtain rfl : ps ++ qs = parts := Except.ok.inj (hparts.symm.trans hsame)
  rw [List.filterMap_append] at hkept
  change s.kept = keptOf ps ++ keptOf qs at hkept
  have hlast : (keptOf qs).length ≤ 1 := by
    rw [← hone]
    exact List.length_filterMap_le _ _
  unfold Split.lines
  split
  · exact Nat.le_add_left 1 _
  · rw [hkept, List.length_append]
    exact Nat.add_le_add_left hlast _

/-- The clean output has a line. -/
theorem Split.length_lines_pos (s : Split) : 0 < s.lines.length := by
  unfold Split.lines
  split
  · exact Nat.zero_lt_one
  · rename_i hne
    exact List.length_pos_of_ne_nil (by simpa using hne)

/-! ## The cut -/

/-- The split of an output that was cut off has the clean lines of the whole, but for its last one,
and the entries of the whole that count from these lines. -/
theorem split_take {sentinel raw : String} {k : Nat} {whole cut : Split}
    (hwhole : split sentinel raw = .ok whole)
    (hcut : split sentinel (String.ofList (raw.toList.take k)) = .ok cut) :
    cut.lines.take (cut.lines.length - 1) = whole.lines.take (cut.lines.length - 1) ∧
      cut.entries.filter (fun e => e.outputLine < cut.lines.length) =
        whole.entries.filter fun e => e.outputLine < cut.lines.length := by
  obtain ⟨parts, hparts, -⟩ := exists_of_split hwhole
  obtain ⟨parts', hparts', -⟩ := exists_of_split hcut
  -- The raw lines before that at the cut are lines of the whole, and yield the same there.
  obtain ⟨ls, l, m, ms, hshort, hlong⟩ := lines_append (raw.toList.take k) (raw.toList.drop k)
  rw [List.take_append_drop] at hlong
  obtain ⟨ps, qs, hps, rfl, -⟩ := exists_of_partsOf_append (hlong ▸ hparts)
  obtain ⟨ps', qs', hps', rfl, hone⟩ := exists_of_partsOf_append
    (by rw [← hshort, ← String.toList_ofList (l := raw.toList.take k)]; exact hparts')
  obtain rfl : ps = ps' := Except.ok.inj (hps.symm.trans hps')
  have hpos := cut.length_lines_pos
  have hle := length_lines_le hcut hparts' (hone rfl)
  obtain ⟨n, hn⟩ : ∃ n, cut.lines.length = n + 1 := ⟨_, (Nat.succ_pred_eq_of_pos hpos).symm⟩
  rw [hn] at hle ⊢
  obtain ⟨hlinesCut, hentriesCut⟩ := before_of_split hcut hparts' (Nat.le_of_succ_le_succ hle)
  obtain ⟨hlinesWhole, hentriesWhole⟩ :=
    before_of_split hwhole hparts (Nat.le_of_succ_le_succ hle)
  exact ⟨hlinesCut.trans hlinesWhole.symm, hentriesCut.trans hentriesWhole.symm⟩

/-- A raw output with a marker in front of a line and one inside the line that ends it. -/
def cutSample : String :=
  "<a>\r\n<!--T|f.xsl|2|b--><b>\n  <!--T|f.xsl|3|c--><c/><!--T|f.xsl|4|d--><d/>\n</b>"

/-- The sample is cut off inside its last marker: the first two lines and the marker on the second
are those of the whole. -/
theorem split_take_insideMarker :
    ∃ whole cut, split "T" cutSample = .ok whole ∧
      split "T" (String.ofList (cutSample.toList.take 62)) = .ok cut ∧
      cut.lines = ["<a>", "<b>", "  <c/>"] ∧
      cut.lines.take 2 = whole.lines.take 2 ∧
      cut.entries.filter (fun e => e.outputLine < 3) =
        whole.entries.filter fun e => e.outputLine < 3 := by
  have hwhole : split "T" cutSample = .ok ⟨["<a>", "<b>", "  <c/><d/>", "</b>"],
      [⟨2, "f.xsl", 2, "b"⟩, ⟨3, "f.xsl", 3, "c"⟩, ⟨3, "f.xsl", 4, "d"⟩]⟩ := by
    decide +kernel
  have hcut : split "T" (String.ofList (cutSample.toList.take 62)) =
      .ok ⟨["<a>", "<b>", "  <c/>"], [⟨2, "f.xsl", 2, "b"⟩, ⟨3, "f.xsl", 3, "c"⟩]⟩ := by
    decide +kernel
  exact ⟨_, _, hwhole, hcut, rfl, split_take hwhole hcut⟩

end StylesheetTrace.Output
