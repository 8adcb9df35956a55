import StylesheetTrace.Proofs.Output.Clean
import StylesheetTrace.Proofs.Text.Span

/-!
# Where trace entries come from

The entries of a line are read by one reader, and its comments are taken out by another. Both begin
at the same places, but only the second ends at the first end of a comment. So a marker takes the
span of a comment that is taken out, unless its file holds the end of a comment or it begins inside
a comment which was begun before (`Yields.span_mem`). In the second case it still ends with that
comment (`Yields.inside`), so that nothing of it stays on the line.
-/

namespace StylesheetTrace.Output

open StylesheetTrace.Text

/-! ## Markers and comments -/

section

variable {sentinel : List Char}

/-- Where a marker stands, the comment ends with it exactly when its file does not end the comment
before. -/
theorem markerComment?_of_marker? {s file row element rest : List Char}
    (h : marker? sentinel s = some ((file, row, element), rest)) :
    (∃ b, markerComment? sentinel s = some (b, rest)) ↔ ¬ commentEnd <:+: file := by
  obtain ⟨rfl, -, hrow, -, helement⟩ := marker?_eq_some.mp h
  have hend : commentEnd = ['-', '-'] ++ ['>'] := rfl
  constructor
  · rintro ⟨b, hcomment⟩ hinfix
    obtain ⟨t, ht, hfirst⟩ := markerComment?_eq_some.mp hcomment
    obtain rfl := List.append_cancel_left ht
    -- The comment would end inside the file, and leave more than stands behind the marker.
    obtain ⟨x, hx, -⟩ := afterFirst?_append_of_infix hinfix
      ('|' :: (row ++ '|' :: (element ++ (commentEnd ++ rest))))
    have hlen := congrArg List.length (Option.some.inj (hfirst.symm.trans hx))
    simp only [List.length_append, List.length_cons] at hlen
    omega
  · intro hfile
    have hfields := not_infix_fields hfile hrow helement
    refine ⟨(), markerComment?_eq_some.mpr ⟨_, rfl, ?_⟩⟩
    rw [hend] at hfields ⊢
    rw [← afterFirst?_append (by decide) hfields rest]
    simp

/-- A comment inside of which a marker begins ends with the marker, unless the file of the marker
ends it before. -/
theorem rest_eq_of_inside (hopen : '<' ∉ sentinel) (hclose : '>' ∉ sentinel)
    {s t file row element rest rest' : List Char} {b : Unit}
    (hcomment : markerComment? sentinel s = some (b, rest'))
    (hmarker : marker? sentinel t = some ((file, row, element), rest)) (ht : t <:+ s)
    (hbegins : t.length < s.length) (hinside : rest'.length < t.length)
    (hfile : ¬ commentEnd <:+: file) : rest' = rest := by
  obtain ⟨v, rfl, hfirst⟩ := markerComment?_eq_some.mp hcomment
  obtain ⟨rfl, -, hrow, -, helement⟩ := marker?_eq_some.mp hmarker
  have hstart : markerStart sentinel = '<' :: (['!', '-', '-'] ++ sentinel ++ ['|']) := rfl
  have hend : commentEnd = ['-', '-'] ++ ['>'] := rfl
  have hfields := not_infix_fields hfile hrow helement
  -- The marker does not begin inside the beginning of the comment.
  have hsuffix : markerStart sentinel ++
      (file ++ '|' :: (row ++ '|' :: (element ++ (commentEnd ++ rest)))) <:+ v := by
    rw [hstart, List.cons_append, List.cons_append] at ht ⊢
    rcases List.suffix_cons_iff.mp ht with heq | ht
    · rw [hstart, List.cons_append, List.cons_append, heq] at hbegins
      exact absurd hbegins (Nat.lt_irrefl _)
    · exact suffix_of_suffix_append (by simpa using hopen) ht
  obtain ⟨u, rfl⟩ := hsuffix
  -- The comment ends neither before the marker nor in its beginning nor in its fields.
  have hbefore : ¬ commentEnd <:+: u := by
    intro hinfix
    obtain ⟨x, hx, -⟩ := afterFirst?_append_of_infix hinfix (markerStart sentinel ++
      (file ++ '|' :: (row ++ '|' :: (element ++ (commentEnd ++ rest)))))
    obtain rfl := Option.some.inj (hfirst.symm.trans hx)
    rw [List.length_append] at hinside
    omega
  have hwhole : ¬ commentEnd <:+: u ++ '<' :: (['!', '-', '-'] ++ sentinel ++
      '|' :: (file ++ '|' :: (row ++ '|' :: element))) := by
    intro hinfix
    rcases infix_of_infix_append_cons (by decide) hinfix with hinfix | hinfix
    · exact hbefore hinfix
    · rcases infix_of_infix_append_cons (by decide) hinfix with hinfix | hinfix
      · have hmem := hinfix.subset (a := '>') (by decide)
        simp [hclose] at hmem
      · exact hfields hinfix
  have hfirst' := afterFirst?_append (v := ['-', '-']) (c := '>') (by decide)
    (by rwa [hend] at hwhole) rest
  rw [← hend] at hfirst'
  refine Option.some.inj (hfirst.symm.trans (Eq.trans ?_ hfirst'))
  simp [hstart]

end

/-! ## What a line yields -/

/-- The fields of each marker of a line, and the span that the marker takes. -/
def markersIn (sentinel line : List Char) : List ((List Char × List Char × List Char) × Span) :=
  spans (marker? sentinel) line

/-- The spans of the comments that are taken out of a line. -/
def removedFrom (sentinel line : List Char) : List Span :=
  (spans (markerComment? sentinel) line).map Prod.snd

/-- Where a part of a split comes from in its line. -/
structure Yields (sentinel line : List Char) (p : Part) : Prop where
  /-- The places are named by markers of the line. -/
  origins : ∀ o ∈ p.origins, ∃ m ∈ markersIn sentinel line, originOf? m.1 = .ok (some o)
  /-- What is kept of the line are characters outside the comments that are taken out. -/
  kept : ∀ text ∈ p.kept, text.toList <+: outside (removedFrom sentinel line) line
  /-- A marker takes the span of one of these comments, unless the comment ends in its file or an
  earlier one goes on behind its beginning. -/
  span_mem : ∀ m ∈ markersIn sentinel line, m.2 ∈ removedFrom sentinel line ↔
    ¬ commentEnd <:+: m.1.1 ∧ ∀ r ∈ removedFrom sentinel line, ¬ r.Interrupts m.2
  /-- A marker whose file does not end the comment ends with a comment in which it lies, if the
  sentinel holds no angle bracket. -/
  inside : '<' ∉ sentinel → '>' ∉ sentinel → ∀ m ∈ markersIn sentinel line,
    ¬ commentEnd <:+: m.1.1 →
      ∃ r ∈ removedFrom sentinel line, r.start ≤ m.2.start ∧ r.stop = m.2.stop

/-- Every part is made of its line. -/
theorem yields_of_partOf {sentinel : List Char} {isLast : Bool} {line : List Char} {p : Part}
    (h : partOf sentinel isLast line = .ok p) : Yields sentinel line p := by
  have hmarkers : ∀ m ∈ markersIn sentinel line, ∃ q ∈ collect (withPlace (marker? sentinel)) line,
      (q.form, q.span line) = m := fun m hm => List.mem_map.mp hm
  constructor
  case origins =>
    intro o ho
    obtain ⟨origins, horigins, hp⟩ := bind_eq_ok.mp h
    obtain rfl := Except.ok.inj hp
    obtain ⟨found, hfound, rfl⟩ := List.mem_filterMap.mp ho
    obtain ⟨fields, hfields, horigin⟩ := (mem_mapM_eq_ok horigins).mp hfound
    rw [← map_fst_spans advances_marker] at hfields
    obtain ⟨m, hm, rfl⟩ := List.mem_map.mp hfields
    exact ⟨m, hm, horigin⟩
  case kept =>
    intro text htext
    rw [kept_of_partOf h text htext, String.toList_ofList, removedFrom,
      outside_spans advances_markerComment]
    exact cleaned_isPrefix sentinel isLast line
  case span_mem =>
    intro m hm
    obtain ⟨q, hq, rfl⟩ := hmarkers m hm
    have hread := (read_of_mem advances_marker hq).2
    rw [removedFrom, span_mem_spans_iff advances_marker advances_markerComment hq,
      markerComment?_of_marker? hread]
  case inside =>
    intro hopen hclose m hm hfile
    obtain ⟨q, hq, rfl⟩ := hmarkers m hm
    obtain ⟨htail, hread⟩ := read_of_mem advances_marker hq
    obtain ⟨b, hcomment⟩ := (markerComment?_of_marker? hread).mpr hfile
    rcases mem_or_inside advances_markerComment htail hcomment with hfound | ⟨r, hr, hbegins, hgoes⟩
    · exact ⟨_, List.mem_map.mpr ⟨_, List.mem_map.mpr ⟨_, hfound, rfl⟩, rfl⟩, Nat.le_refl _, rfl⟩
    · -- The earlier comment ends with the marker.
      obtain ⟨hrtail, hrread⟩ := read_of_mem advances_markerComment hr
      have hsuffix := List.suffix_of_suffix_length_le htail hrtail (Nat.le_of_lt hbegins)
      have hrest := rest_eq_of_inside hopen hclose hrread hread hsuffix hbegins hgoes hfile
      refine ⟨r.span line, List.mem_map.mpr ⟨_, List.mem_map.mpr ⟨r, hr, rfl⟩, rfl⟩, ?_, ?_⟩
      · exact Nat.sub_le_sub_left (Nat.le_of_lt hbegins) line.length
      · rw [Place.span, Place.span, hrest]

/-- An entry names the place of one of the parts. -/
theorem exists_of_mem_numberedFrom {i : Nat} {ps : List Part} {e : TraceEntry}
    (h : e ∈ numberedFrom i ps) : ∃ p ∈ ps, e.origin ∈ p.origins := by
  induction ps generalizing i with
  | nil => exact absurd h List.not_mem_nil
  | cons p ps ih =>
    rw [numberedFrom, List.mem_append] at h
    rcases h with h | h
    · obtain ⟨o, ho, rfl⟩ := List.mem_map.mp h
      exact ⟨p, List.mem_cons_self, ho⟩
    · obtain ⟨q, hq, ho⟩ := ih h
      exact ⟨q, List.mem_cons_of_mem p hq, ho⟩

/-- Every entry of a raw output names the place of a marker on one of its lines. -/
theorem exists_of_mem_entries {sentinel raw : String} {s : Split} (h : split sentinel raw = .ok s)
    {e : TraceEntry} (he : e ∈ s.entries) :
    ∃ line ∈ Text.lines raw.toList, ∃ m ∈ markersIn sentinel.toList line,
      originOf? m.1 = .ok (some e.origin) := by
  obtain ⟨parts, hparts, -, hentries⟩ := exists_of_split h
  rw [hentries, numbered_eq] at he
  obtain ⟨p, hp, ho⟩ := exists_of_mem_numberedFrom (List.mem_of_mem_filter he)
  obtain ⟨line, hline, isLast, hpart⟩ := exists_of_mem_partsOf hparts hp
  exact ⟨line, hline, (yields_of_partOf hpart).origins _ ho⟩

/-- The clean output and the trace entries of any raw output are put together from parts, each of
which is made of its raw line. -/
theorem yields_of_split {sentinel raw : String} {s : Split} (h : split sentinel raw = .ok s) :
    ∃ parts, List.Forall₂ (Yields sentinel.toList) (Text.lines raw.toList) parts ∧
      s.kept = parts.filterMap Part.kept ∧
      s.entries = (numbered parts).filter fun e => e.outputLine ≤ s.kept.length := by
  obtain ⟨parts, hparts, hsplit⟩ := exists_of_split h
  refine ⟨parts, (forall₂_partsOf hparts).imp ?_, hsplit⟩
  rintro line p ⟨isLast, hpart⟩
  exact yields_of_partOf hpart

/-- A raw output with a marker on a line of its own, and one behind a comment that begins like a
marker and names no line. -/
def mixedSample : String :=
  "<!--T|f.xsl|2|b-->\n<b><!--T|note--><!--T|f.xsl|3|c--><c/></b>"

/-- Both markers of the sample take the span of a comment that is taken out. -/
theorem yields_of_split_mixedSample :
    ∃ s parts, split "T" mixedSample = .ok s ∧ s.kept = ["<b><c/></b>"] ∧
      s.entries = [⟨1, "f.xsl", 2, "b"⟩, ⟨1, "f.xsl", 3, "c"⟩] ∧
      List.Forall₂ (Yields "T".toList) (Text.lines mixedSample.toList) parts ∧
      s.kept = parts.filterMap Part.kept ∧
      s.entries = (numbered parts).filter fun e => e.outputLine ≤ s.kept.length := by
  have hsplit : split "T" mixedSample = .ok ⟨["<b><c/></b>"],
      [⟨1, "f.xsl", 2, "b"⟩, ⟨1, "f.xsl", 3, "c"⟩]⟩ := by
    decide +kernel
  obtain ⟨parts, hparts⟩ := yields_of_split hsplit
  exact ⟨_, parts, hsplit, rfl, rfl, hparts⟩

-- A file with the end of a comment in it: the comment that is taken out ends there, so that the
-- rest of the marker stays on the line.
example : markersIn "T".toList "<!--T|a-->b|5|n-->".toList =
      [(("a-->b".toList, "5".toList, "n".toList), ⟨0, 18⟩)] ∧
    removedFrom "T".toList "<!--T|a-->b|5|n-->".toList = [⟨0, 10⟩] := by
  decide +kernel

end StylesheetTrace.Output
