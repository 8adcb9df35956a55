import StylesheetTrace.Proofs.Output.Marker
import StylesheetTrace.Proofs.Text.Lines

/-!
# The split of a marked output

A raw output in which every marker stands on a line of its own is split into its other lines, as
they stand, and one entry for each marker (`split_rawText`). The entry has the file, the line and
the element of the marker, and counts from the line that follows among those which are kept: the
markers before it take no lines (`entriesFrom`). When at most one marker stands before a line, the
entries stand in the order of their lines (`split_markedText`, `pairwise_entriesOf`).
-/

namespace StylesheetTrace.Output

open StylesheetTrace.Text

/-! ## Parts -/

/-- The parts of lines that are known line by line: the last line is read by itself, since a marker
may be cut off there. -/
theorem partsOf_map {α : Type} {sentinel : List Char} {chars : α → List Char} {part : α → Part}
    {ls : List α} (hinner : ∀ l ∈ ls, partOf sentinel false (chars l) = .ok (part l))
    (hlast : ∀ l ∈ ls.getLast?, partOf sentinel true (chars l) = .ok (part l)) :
    partsOf sentinel (ls.map chars) = .ok (ls.map part) := by
  have hfirsts : (ls.dropLast.map chars).mapM (partOf sentinel false) =
      .ok (ls.dropLast.map part) := by
    rw [List.mapM_map]
    exact mapM_eq_ok fun l hl => hinner l (List.dropLast_subset _ hl)
  unfold partsOf
  rw [← List.map_dropLast, hfirsts, List.getLast?_map]
  cases h : ls.getLast? with
  | none =>
    rw [List.getLast?_eq_none_iff.mp h]
    rfl
  | some l =>
    rw [Option.map_some, Option.toList_some, List.mapM_cons, hlast l h]
    conv_rhs => rw [← List.dropLast_append_getLast? l h, List.map_append]
    rfl

/-- The entries of the parts, where `i` is the number of the next line that is kept. -/
def numberedFrom (i : Nat) : List Part → List TraceEntry
  | [] => []
  | p :: ps =>
    p.origins.map (fun o => ⟨i, o⟩) ++ numberedFrom (i + if p.kept.isSome then 1 else 0) ps

/-- The entries of the parts count on from the first line. -/
theorem numbered_eq (ps : List Part) : numbered ps = numberedFrom 1 ps := by
  -- What is found stands in reverse in front of what is still to be found.
  have hfold : ∀ (n : Nat) (found : List TraceEntry), (ps.foldl
      (fun (acc : Nat × List TraceEntry) p =>
        (acc.1 + (if p.kept.isSome then 1 else 0),
          (p.origins.map fun o => ⟨acc.1 + 1, o⟩).reverse ++ acc.2)) (n, found)).2.reverse =
      found.reverse ++ numberedFrom (n + 1) ps := by
    induction ps with
    | nil => intro n found; rw [numberedFrom, List.append_nil]; rfl
    | cons p ps ih =>
      intro n found
      rw [List.foldl_cons, ih, numberedFrom, List.reverse_append, List.reverse_reverse,
        List.append_assoc, Nat.add_right_comm]
  exact hfold 0 []

/-! ## Raw lines -/

/-- A line of a raw output: a marker, or a line that is kept. -/
inductive RawLine where
  | marker (stamp : Stamp) (element : List Char)
  | content (line : List Char)

namespace RawLine

/-- The characters of a raw line. -/
def chars (sentinel : List Char) : RawLine → List Char
  | marker p element => p.indent ++ (markerStart sentinel ++ p.fields element)
  | content line => line

/-- The line that is kept. -/
def kept? : RawLine → Option (List Char)
  | marker _ _ => none
  | content line => some line

/-- The line can be split: a marker can be read back, its element does not end it, and a line that
is kept holds no marker and no line end. -/
def Sound (sentinel : List Char) : RawLine → Prop
  | marker p element => p.Sound ∧ '\n' ∉ element ∧ ¬ commentEnd <:+: element
  | content line => '\n' ∉ line ∧ line.getLast? ≠ some '\r' ∧ ¬ markerStart sentinel <:+: line

/-- What a raw line yields. -/
def part : RawLine → Part
  | marker p element => ⟨[p.origin element], none⟩
  | content line => ⟨[], some (String.ofList line)⟩

end RawLine

/-- The lines that are kept. -/
def keptLines (ls : List RawLine) : List (List Char) := ls.filterMap RawLine.kept?

/-- A marker takes no line. -/
@[simp]
theorem keptLines_marker (p : Stamp) (element : List Char) (ls : List RawLine) :
    keptLines (.marker p element :: ls) = keptLines ls := rfl

/-- A line without a marker is kept. -/
@[simp]
theorem keptLines_content (line : List Char) (ls : List RawLine) :
    keptLines (.content line :: ls) = line :: keptLines ls := rfl

/-- The lines kept of lines one behind the other. -/
@[simp]
theorem keptLines_append (ls ms : List RawLine) :
    keptLines (ls ++ ms) = keptLines ls ++ keptLines ms :=
  List.filterMap_append

/-- The entries of the markers, where `i` is the number of the next line that is kept. -/
def entriesFrom (i : Nat) : List RawLine → List TraceEntry
  | [] => []
  | .marker p element :: ls => ⟨i, p.origin element⟩ :: entriesFrom i ls
  | .content _ :: ls => entriesFrom (i + 1) ls

/-- The raw output as a text. -/
def rawText (sentinel : String) (ls : List RawLine) : String :=
  joinLines (ls.map fun l => String.ofList (l.chars sentinel.toList))

section

variable {sentinel : List Char}

/-- A line with a marker yields its place and is not kept. -/
theorem partOf_marker {p : Stamp} {element : List Char}
    (h : (RawLine.marker p element).Sound sentinel) :
    partOf sentinel false ((RawLine.marker p element).chars sentinel) =
      .ok (RawLine.marker p element).part := by
  obtain ⟨hp, -, helement⟩ := h
  -- The marker is the only one on its line, behind blanks in which none begins.
  have hmarker := @marker?_fields sentinel p hp element helement []
  have hcomment := @markerComment?_fields sentinel p hp element helement []
  rw [List.append_nil] at hmarker hcomment
  have hsilent := @Stamp.Sound.silent_indent sentinel p hp
    (markerStart sentinel ++ p.fields element)
  have hcollect : collect (marker? sentinel) ((RawLine.marker p element).chars sentinel) =
      [(p.file, decimal p.line, element)] := by
    rw [RawLine.chars, collect_append_of_silent hsilent.1, collect_of_some reduces_marker hmarker]
    rfl
  -- Without the comment only the blanks are left, for which no line is kept.
  have hclean : cleaned sentinel false ((RawLine.marker p element).chars sentinel) = p.indent := by
    rw [cleaned, RawLine.chars, erase_append_of_silent hsilent.2,
      erase_of_some reduces_markerComment hcomment]
    exact List.append_nil _
  have horigin : originOf? (p.file, decimal p.line, element) = .ok (some (p.origin element)) := by
    have hpos := hp.line_pos
    rw [originOf?, readDigits_decimal hp.line_lt]
    simp only [Except.map, if_neg (Nat.not_lt.mpr hpos)]
    rfl
  have hblank : p.indent.all isBlank = true :=
    List.all_eq_true.mpr fun c hc => (hp.indent_ok c hc).1
  have hne : (p.indent != (RawLine.marker p element).chars sentinel) = true := by
    rw [bne_iff_ne, RawLine.chars]
    intro heq
    have hlen := congrArg List.length heq
    simp [markerStart] at hlen
  unfold partOf
  rw [hcollect]
  simp only [List.mapM_cons, List.mapM_nil, horigin, hclean, hblank, hne]
  rfl

/-- A line in which no marker is read and from which nothing is taken out is kept as it stands. -/
theorem partOf_of_clean {isLast : Bool} {line : List Char}
    (hmarker : collect (marker? sentinel) line = [])
    (hclean : cleaned sentinel isLast line = line) :
    partOf sentinel isLast line = .ok ⟨[], some (String.ofList line)⟩ := by
  unfold partOf
  rw [hmarker, hclean]
  simp only [bne_self_eq_false]
  rfl

/-- A line without a marker is kept as it stands, also at the end of the output. -/
theorem partOf_content {line : List Char} (h : ¬ markerStart sentinel <:+: line) (isLast : Bool) :
    partOf sentinel isLast ((RawLine.content line).chars sentinel) =
      .ok (RawLine.content line).part := by
  obtain ⟨hmarker, hcomment, hdangling⟩ := silent_of_not_marked h
  refine partOf_of_clean (collect_of_silent hmarker) ?_
  unfold cleaned
  rw [RawLine.chars, erase_of_silent hcomment]
  split
  · exact erase_of_silent hdangling
  · rfl

/-- The parts of a raw output that ends with a line which is kept. -/
theorem partsOf_chars {ls : List RawLine} (h : ∀ l ∈ ls, l.Sound sentinel) {line : List Char}
    (hlast : ls.getLast? = some (.content line)) :
    partsOf sentinel (ls.map (RawLine.chars sentinel)) = .ok (ls.map RawLine.part) := by
  refine partsOf_map (fun l hl => ?_) (fun l hl => ?_)
  · cases l with
    | marker p element => exact partOf_marker (h _ hl)
    | content line => exact partOf_content (h _ hl).2.2 false
  · obtain rfl : RawLine.content line = l := Option.some.inj (hlast.symm.trans hl)
    exact partOf_content (h _ (List.mem_of_getLast? hlast)).2.2 true

end

/-! ## Entries -/

/-- The entries of the parts of a raw output count from the lines that follow their markers. -/
theorem numbered_part (ls : List RawLine) : numbered (ls.map RawLine.part) = entriesFrom 1 ls := by
  rw [numbered_eq]
  generalize 1 = i
  induction ls generalizing i with
  | nil => rfl
  | cons l ls ih =>
    rw [List.map_cons, numberedFrom, ih]
    cases l <;> rfl

/-- An entry counts from a line among those from `i` on, or from the end of the output. -/
theorem outputLine_of_mem_entriesFrom {ls : List RawLine} {i : Nat} {e : TraceEntry}
    (h : e ∈ entriesFrom i ls) :
    i ≤ e.outputLine ∧ e.outputLine ≤ i + (keptLines ls).length := by
  induction ls generalizing i with
  | nil => simp [entriesFrom] at h
  | cons l ls ih =>
    cases l with
    | marker p element =>
      rw [entriesFrom, List.mem_cons] at h
      rw [keptLines_marker]
      rcases h with rfl | h
      · exact ⟨Nat.le_refl _, Nat.le_add_right _ _⟩
      · exact ih h
    | content line =>
      rw [entriesFrom] at h
      rw [keptLines_content, List.length_cons]
      have hle := ih h
      omega

/-- The entries of lines one behind the other. -/
theorem entriesFrom_append (ls ms : List RawLine) (i : Nat) :
    entriesFrom i (ls ++ ms) = entriesFrom i ls ++ entriesFrom (i + (keptLines ls).length) ms := by
  induction ls generalizing i with
  | nil => rfl
  | cons l ls ih =>
    cases l with
    | marker p element =>
      rw [List.cons_append, entriesFrom, entriesFrom, ih, keptLines_marker, List.cons_append]
    | content line =>
      rw [List.cons_append, entriesFrom, entriesFrom, ih, keptLines_content, List.length_cons]
      congr 2
      omega

/-- A line of a raw output has no line end inside. -/
theorem RawLine.Sound.chars_ok {sentinel : List Char} (hsentinel : '\n' ∉ sentinel) {l : RawLine}
    (h : l.Sound sentinel) : '\n' ∉ l.chars sentinel ∧ (l.chars sentinel).getLast? ≠ some '\r' := by
  cases l with
  | marker p element =>
    obtain ⟨hp, helement, -⟩ := h
    have hindent : '\n' ∉ p.indent := fun hmem => (hp.indent_ok _ hmem).2 rfl
    have hfile : '\n' ∉ p.file := fun hmem => (hp.file_ok _ hmem).2 rfl
    have hline : '\n' ∉ decimal p.line := fun hmem =>
      absurd (isDigit_of_mem_decimal hmem) (by decide)
    constructor
    · simp [chars, markerStart, Stamp.fields, commentEnd, hindent, hsentinel, hfile, hline,
        helement]
    · have hend : (marker p element).chars sentinel =
          (p.indent ++ (markerStart sentinel ++
            (p.file ++ '|' :: (decimal p.line ++ '|' :: (element ++ ['-', '-']))))) ++ ['>'] := by
        simp [chars, Stamp.fields, commentEnd]
      rw [hend, List.getLast?_concat]
      decide
  | content line => exact ⟨h.1, h.2.1⟩

/-- The lines of a raw output are its raw lines. -/
theorem lines_rawText {sentinel : String} (hsentinel : '\n' ∉ sentinel.toList) {ls : List RawLine}
    (h : ∀ l ∈ ls, l.Sound sentinel.toList) (hne : ls ≠ []) :
    lines (rawText sentinel ls).toList = ls.map (RawLine.chars sentinel.toList) := by
  have htext : rawText sentinel ls =
      joinLines ((ls.map (RawLine.chars sentinel.toList)).map String.ofList) := by
    rw [List.map_map]
    rfl
  rw [htext, toList_joinLines]
  refine lines_join (by simpa using hne) ?_ ?_
  · exact List.forall_mem_map.mpr fun l hl => ((h l hl).chars_ok hsentinel).1
  · rw [← List.map_dropLast]
    refine List.forall_mem_map.mpr fun l hl => ?_
    exact ((h l (List.dropLast_subset _ hl)).chars_ok hsentinel).2

/-- A raw output in which every marker stands on a line of its own, before a line that is kept, is
split into these lines and the entries of the markers. -/
theorem split_rawText {sentinel : String} (hsentinel : '\n' ∉ sentinel.toList) {ls : List RawLine}
    (h : ∀ l ∈ ls, l.Sound sentinel.toList) {line : List Char}
    (hlast : ls.getLast? = some (.content line)) :
    split sentinel (rawText sentinel ls) =
      .ok ⟨(keptLines ls).map String.ofList, entriesFrom 1 ls⟩ := by
  have hlines := lines_rawText hsentinel h (List.ne_nil_of_mem (List.mem_of_getLast? hlast))
  have hkept : (ls.map RawLine.part).filterMap Part.kept = (keptLines ls).map String.ofList := by
    rw [keptLines, List.filterMap_map, List.map_filterMap]
    congr 1
    funext l
    cases l <;> rfl
  -- No entry counts from a line behind the last, since a line that is kept follows every marker.
  have hentries : ∀ e ∈ entriesFrom 1 ls, e.outputLine ≤ (keptLines ls).length := by
    have hsplit : ls = ls.dropLast ++ [.content line] :=
      (List.dropLast_append_getLast? _ hlast).symm
    intro e he
    rw [hsplit, entriesFrom_append] at he
    have hmem : e ∈ entriesFrom 1 ls.dropLast := by simpa [entriesFrom] using he
    have hle := (outputLine_of_mem_entriesFrom hmem).2
    rw [hsplit, keptLines_append, List.length_append, keptLines_content, List.length_cons]
    omega
  rw [split, hlines, partsOf_chars h hlast]
  simp only [Except.map, hkept, numbered_part, List.length_map]
  congr 2
  exact List.filter_eq_self.mpr fun e he => decide_eq_true (hentries e he)

/-! ## Marked lines -/

/-- A line of the clean output with its marker. -/
structure MarkedLine where
  /-- The marker that stands before the line, with the name of its element. -/
  marker? : Option (Stamp × List Char)
  /-- The line. -/
  line : List Char

namespace MarkedLine

/-- The raw lines of a marked line. -/
def raw (m : MarkedLine) : List RawLine :=
  (m.marker?.map fun q => RawLine.marker q.1 q.2).toList ++ [.content m.line]

/-- The entry of a marked line, whose number is `i`. -/
def entryAt? (m : MarkedLine) (i : Nat) : Option TraceEntry :=
  m.marker?.map fun q => ⟨i, q.1.origin q.2⟩

/-- The marked line can be split. -/
def Sound (sentinel : List Char) (m : MarkedLine) : Prop :=
  ∀ l ∈ m.raw, l.Sound sentinel

end MarkedLine

/-- The raw output of marked lines as a text. -/
def markedText (sentinel : String) (ms : List MarkedLine) : String :=
  rawText sentinel (ms.flatMap MarkedLine.raw)

/-- The entries of marked lines, the first of which has number `i`. -/
def entriesOf (i : Nat) (ms : List MarkedLine) : List TraceEntry :=
  (ms.zipIdx i).filterMap fun p => p.1.entryAt? p.2

/-- The entries of a marked line and those behind it. -/
theorem entriesOf_cons (i : Nat) (m : MarkedLine) (ms : List MarkedLine) :
    entriesOf i (m :: ms) = (m.entryAt? i).toList ++ entriesOf (i + 1) ms := by
  unfold entriesOf
  rw [List.zipIdx_cons, List.filterMap_cons]
  cases m.entryAt? i <;> rfl

/-- The entries of marked lines one behind the other. -/
theorem entriesOf_append (i : Nat) (ms ns : List MarkedLine) :
    entriesOf i (ms ++ ns) = entriesOf i ms ++ entriesOf (i + ms.length) ns := by
  unfold entriesOf
  rw [List.zipIdx_append, List.filterMap_append]

/-- The raw lines of marked lines keep their lines. -/
theorem keptLines_raw (ms : List MarkedLine) :
    keptLines (ms.flatMap MarkedLine.raw) = ms.map MarkedLine.line := by
  induction ms with
  | nil => rfl
  | cons m ms ih =>
    rw [List.flatMap_cons, keptLines_append, ih]
    obtain ⟨marker, line⟩ := m
    cases marker <;> rfl

/-- The entries of the raw lines of marked lines. -/
theorem entriesFrom_raw (ms : List MarkedLine) (i : Nat) :
    entriesFrom i (ms.flatMap MarkedLine.raw) = entriesOf i ms := by
  induction ms generalizing i with
  | nil => rfl
  | cons m ms ih =>
    have hkept : (keptLines m.raw).length = 1 := by
      obtain ⟨marker, line⟩ := m
      cases marker <;> rfl
    rw [List.flatMap_cons, entriesFrom_append, hkept, ih, entriesOf_cons]
    obtain ⟨marker, line⟩ := m
    cases marker <;> rfl

/-- The entry of a line counts from it. -/
theorem mem_entriesOf {ms : List MarkedLine} {e : TraceEntry} :
    e ∈ entriesOf 1 ms ↔
      1 ≤ e.outputLine ∧
        ∃ m, ms[e.outputLine - 1]? = some m ∧ m.entryAt? e.outputLine = some e := by
  have hline : ∀ {m : MarkedLine} {i : Nat}, m.entryAt? i = some e → e.outputLine = i := by
    intro m i h
    obtain ⟨q, -, rfl⟩ := Option.map_eq_some_iff.mp h
    rfl
  unfold entriesOf
  rw [List.mem_filterMap]
  constructor
  · rintro ⟨⟨m, i⟩, hmem, hentry⟩
    obtain ⟨hle, hget⟩ := List.mk_mem_zipIdx_iff_le_and_getElem?_sub.mp hmem
    obtain rfl := hline hentry
    exact ⟨hle, m, hget, hentry⟩
  · rintro ⟨hle, m, hget, hentry⟩
    exact ⟨(m, e.outputLine), List.mk_mem_zipIdx_iff_le_and_getElem?_sub.mpr ⟨hle, hget⟩, hentry⟩

/-- The entries stand in the order of their lines, no two on one line. -/
theorem pairwise_entriesOf (ms : List MarkedLine) (i : Nat) :
    (entriesOf i ms).Pairwise fun d e => d.outputLine < e.outputLine := by
  unfold entriesOf
  rw [List.pairwise_filterMap]
  have hsorted : (ms.zipIdx i).Pairwise fun p q => p.2 < q.2 := by
    rw [← List.pairwise_map (f := Prod.snd) (R := (· < ·)), List.zipIdx_map_snd]
    exact List.pairwise_lt_range'
  refine hsorted.imp fun {p q} hlt d hd e he => ?_
  obtain ⟨u, -, rfl⟩ := Option.map_eq_some_iff.mp hd
  obtain ⟨v, -, rfl⟩ := Option.map_eq_some_iff.mp he
  exact hlt

/-- Marked lines are split into the lines and the entries of their markers. -/
theorem split_markedText {sentinel : String} (hsentinel : '\n' ∉ sentinel.toList)
    {ms : List MarkedLine} (h : ∀ m ∈ ms, m.Sound sentinel.toList) (hne : ms ≠ []) :
    split sentinel (markedText sentinel ms) =
      .ok ⟨ms.map fun m => String.ofList m.line, entriesOf 1 ms⟩ := by
  have hsound : ∀ l ∈ ms.flatMap MarkedLine.raw, l.Sound sentinel.toList := by
    intro l hl
    obtain ⟨m, hm, hlm⟩ := List.mem_flatMap.mp hl
    exact h m hm l hlm
  have hlast : (ms.flatMap MarkedLine.raw).getLast? = some (.content (ms.getLast hne).line) := by
    conv_lhs => rw [← List.dropLast_append_getLast hne]
    rw [List.flatMap_append, List.flatMap_singleton, MarkedLine.raw, ← List.append_assoc,
      List.getLast?_concat]
  rw [markedText, split_rawText hsentinel hsound hlast, keptLines_raw, List.map_map,
    entriesFrom_raw]
  rfl

end StylesheetTrace.Output
