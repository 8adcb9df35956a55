import Mathlib.Data.Bool.AllAny
import StylesheetTrace.Proofs.Output.Split

/-!
# Markers anywhere in the output

Markers may stand anywhere in the lines of a raw output, several on one line and behind the last
element. The split takes each of them out where it stands and leaves the rest of its line as it was
(`pieces_chars`): no marker begins in the content, and none reaches from the content into a marker,
since the beginning of a marker holds `<` only once. So a line yields its markers in their order,
and is kept unless it has markers and only blanks besides (`partOf_mixedLine`). The entries count
from the next line that is kept, and those behind the last one are dropped (`split_interleaving`).
-/

namespace StylesheetTrace.Output

open StylesheetTrace.Text

/-! ## Lines with markers -/

/-- A marker that can be read back. -/
structure InsertedMarker where
  /-- The path of the stylesheet. -/
  file : List Char
  /-- The line of the stylesheet. -/
  line : Nat
  /-- The name of the element. -/
  element : List Char
  /-- The path holds no delimiter and does not end the line. -/
  file_ok : ∀ c ∈ file, c ≠ '|' ∧ c ≠ '\n'
  /-- The path does not end the comment. -/
  file_open : ¬ commentEnd <:+: file
  /-- The line is counted from 1. -/
  line_pos : 1 ≤ line
  /-- The line is one that is read. -/
  line_lt : line < 10 ^ TooLong.limit
  /-- The name does not end the line. -/
  element_ok : '\n' ∉ element
  /-- The name does not end the comment. -/
  element_open : ¬ commentEnd <:+: element

namespace InsertedMarker

/-- What stands in the marker before its element. -/
def stamp (m : InsertedMarker) : Stamp := ⟨[], m.file, m.line⟩

/-- The place in the stylesheet that the marker names. -/
def origin (m : InsertedMarker) : Origin := m.stamp.origin m.element

/-- The characters of the marker. -/
def chars (sentinel : List Char) (m : InsertedMarker) : List Char :=
  markerStart sentinel ++ m.stamp.fields m.element

/-- The fields of the marker as they are read. -/
def readFields (m : InsertedMarker) : List Char × List Char × List Char :=
  (m.file, decimal m.line, m.element)

/-- The stamp of the marker can be read back. -/
theorem sound_stamp (m : InsertedMarker) : m.stamp.Sound :=
  ⟨fun _ h => absurd h List.not_mem_nil, m.file_ok, m.file_open, m.line_pos, m.line_lt⟩

/-- The fields of the marker name its place in the stylesheet. -/
theorem originOf?_readFields (m : InsertedMarker) :
    originOf? m.readFields = .ok (some m.origin) := by
  rw [readFields, originOf?, readDigits_decimal m.line_lt]
  simp only [Except.map, if_neg (Nat.not_lt.mpr m.line_pos)]
  rfl

/-- The marker holds no line feed and does not end with a carriage return. -/
theorem chars_ok {sentinel : List Char} (hsentinel : '\n' ∉ sentinel) (m : InsertedMarker) :
    '\n' ∉ m.chars sentinel ∧ (m.chars sentinel).getLast? ≠ some '\r' :=
  RawLine.Sound.chars_ok (l := .marker m.stamp m.element) hsentinel
    ⟨m.sound_stamp, m.element_ok, m.element_open⟩

end InsertedMarker

/-- A line of a raw output, character by character, with the markers where they stand. -/
abbrev MixedLine := List (Piece InsertedMarker)

namespace MixedLine

/-- The line without its markers. -/
def content (l : MixedLine) : List Char := l.filterMap Piece.plain?

/-- The markers of the line, in their order. -/
def markers (l : MixedLine) : List InsertedMarker := l.filterMap Piece.form?

/-- The characters of the line. -/
def chars (sentinel : List Char) (l : MixedLine) : List Char :=
  l.flatMap fun
    | .plain c => [c]
    | .form m => m.chars sentinel

/-- The line is kept: it has no marker, or something besides that is not blank. -/
def isKept (l : MixedLine) : Bool := l.markers.isEmpty || !l.content.all isBlank

/-- The content of a line can stand between markers. -/
structure Sound (sentinel : List Char) (l : MixedLine) : Prop where
  /-- No line end is inside of the content. -/
  feed : '\n' ∉ l.content
  /-- No half of a line end is at the end of the content. -/
  returnEnd : l.content.getLast? ≠ some '\r'
  /-- No marker begins in the content. -/
  unmarked : ¬ markerStart sentinel <:+: l.content

/-- What the line yields. -/
def part (l : MixedLine) : Part :=
  ⟨l.markers.map InsertedMarker.origin,
    if l.isKept then some (String.ofList l.content) else none⟩

section

variable {sentinel : List Char} (l : MixedLine)

/-- A character belongs to the content. -/
@[simp]
theorem content_plain (c : Char) : content (.plain c :: l) = c :: l.content := rfl

/-- A marker does not belong to the content. -/
@[simp]
theorem content_form (m : InsertedMarker) : content (.form m :: l) = l.content := rfl

/-- A character is no marker. -/
@[simp]
theorem markers_plain (c : Char) : markers (.plain c :: l) = l.markers := rfl

/-- The first marker of a line that begins with it. -/
@[simp]
theorem markers_form (m : InsertedMarker) : markers (.form m :: l) = m :: l.markers := rfl

/-- A line that begins with a character goes on behind it. -/
@[simp]
theorem chars_plain (c : Char) : chars sentinel (.plain c :: l) = c :: l.chars sentinel := rfl

/-- A line that begins with a marker goes on behind it. -/
@[simp]
theorem chars_form (m : InsertedMarker) :
    chars sentinel (.form m :: l) = m.chars sentinel ++ l.chars sentinel := rfl

end

/-! ## Reading a line -/

section

variable {sentinel : List Char}

/-- A word without `<` that begins a line begins its content, since a marker begins with `<`. -/
theorem isPrefix_content {w : List Char} (hw : '<' ∉ w) {l : MixedLine}
    (h : w <+: l.chars sentinel) : w <+: l.content := by
  induction l generalizing w with
  | nil => exact h
  | cons p l ih =>
    cases w with
    | nil => exact List.nil_prefix
    | cons d w =>
      cases p with
      | plain c =>
        rw [chars_plain, List.cons_prefix_cons] at h
        rw [content_plain, List.cons_prefix_cons]
        exact ⟨h.1, ih (fun hmem => hw (List.mem_cons_of_mem d hmem)) h.2⟩
      | form m =>
        obtain ⟨t, ht⟩ := h
        have hd : d = '<' := (List.cons.inj ht).1
        exact absurd (hd ▸ List.mem_cons_self) hw

/-- At a character of the content no marker begins: it could neither lie in the content nor reach
from there into the next marker. -/
theorem not_markerStart_plain (hsentinel : '<' ∉ sentinel) {c : Char} {l : MixedLine}
    (h : ¬ markerStart sentinel <:+: content (.plain c :: l)) :
    ¬ markerStart sentinel <+: chars sentinel (.plain c :: l) := by
  have hstart : markerStart sentinel = '<' :: (['!', '-', '-'] ++ sentinel ++ ['|']) := by
    simp [markerStart]
  intro hbegins
  refine h (List.IsPrefix.isInfix ?_)
  rw [hstart, chars_plain, List.cons_prefix_cons] at hbegins
  rw [hstart, content_plain, List.cons_prefix_cons]
  exact ⟨hbegins.1, isPrefix_content (by simp [hsentinel]) hbegins.2⟩

/-- A reader of markers cuts a line into the characters of its content and its markers, when it
reads each marker where it stands and nothing where no marker begins. -/
theorem pieces_chars {α : Type} {r : Reader α} {g : InsertedMarker → α} (hr : Reduces r)
    (hmarker : ∀ (m : InsertedMarker) s, r (m.chars sentinel ++ s) = some (g m, s))
    (hplain : ∀ s, ¬ markerStart sentinel <+: s → r s = none) (hsentinel : '<' ∉ sentinel)
    {l : MixedLine} (h : ¬ markerStart sentinel <:+: l.content) :
    pieces r (l.chars sentinel) = l.map fun
      | .plain c => .plain c
      | .form m => .form (g m) := by
  induction l with
  | nil => rfl
  | cons p l ih =>
    cases p with
    | plain c =>
      have hl : ¬ markerStart sentinel <:+: content l := fun hl =>
        h (hl.trans (List.suffix_cons c (content l)).isInfix)
      have hnone : r (c :: chars sentinel l) = none :=
        hplain _ (not_markerStart_plain hsentinel h)
      rw [chars_plain, pieces_cons_of_none hnone, ih hl]
      rfl
    | form m =>
      rw [chars_form, pieces_of_some hr (hmarker m _), ih h]
      rfl

/-- A line is no shorter than its content. -/
theorem length_content_le (sentinel : List Char) (l : MixedLine) :
    l.content.length ≤ (l.chars sentinel).length := by
  induction l with
  | nil => exact Nat.le_refl 0
  | cons p l ih =>
    cases p with
    | plain c =>
      rw [content_plain, chars_plain, List.length_cons, List.length_cons]
      exact Nat.succ_le_succ ih
    | form m =>
      rw [content_form, chars_form, List.length_append]
      exact Nat.le_add_left_of_le ih

/-- A line has markers exactly when it is not its content. -/
theorem content_bne_chars (sentinel : List Char) (l : MixedLine) :
    (l.content != l.chars sentinel) = !l.markers.isEmpty := by
  induction l with
  | nil => rfl
  | cons p l ih =>
    cases p with
    | plain c =>
      rw [content_plain, chars_plain, markers_plain, ← ih, Bool.eq_iff_iff, bne_iff_ne,
        bne_iff_ne, ne_eq, List.cons.injEq]
      simp
    | form m =>
      -- The marker takes characters, and what follows it is no shorter than the content.
      have hlen := length_content_le sentinel l
      have hne : content l ≠ m.chars sentinel ++ chars sentinel l := by
        intro heq
        have hlong := congrArg List.length heq
        simp [InsertedMarker.chars, markerStart] at hlong
        omega
      rw [content_form, chars_form, markers_form, bne_iff_ne.mpr hne]
      rfl

variable (hsentinel : '<' ∉ sentinel) {l : MixedLine}
  (h : ¬ markerStart sentinel <:+: l.content)
include hsentinel h

/-- The markers of a line are read in their order. -/
theorem collect_marker_chars :
    collect (marker? sentinel) (l.chars sentinel) =
      l.markers.map InsertedMarker.readFields := by
  have hread : ∀ (m : InsertedMarker) s,
      marker? sentinel (m.chars sentinel ++ s) = some (m.readFields, s) := by
    intro m s
    rw [InsertedMarker.chars, List.append_assoc]
    exact marker?_fields m.sound_stamp m.element_open s
  have hnone : ∀ s, ¬ markerStart sentinel <+: s → marker? sentinel s = none := by
    intro s hs
    rw [marker?, after?_markerStart_eq_none hs]
    rfl
  rw [collect, pieces_chars reduces_marker hread hnone hsentinel h, List.filterMap_map, markers,
    List.map_filterMap]
  congr 1
  funext p
  cases p <;> rfl

/-- Without the comments that are markers a line is its content. -/
theorem erase_markerComment_chars :
    erase (markerComment? sentinel) (l.chars sentinel) = l.content := by
  have hread : ∀ (m : InsertedMarker) s,
      markerComment? sentinel (m.chars sentinel ++ s) = some ((), s) := by
    intro m s
    rw [InsertedMarker.chars, List.append_assoc]
    exact markerComment?_fields m.sound_stamp m.element_open s
  have hnone : ∀ s, ¬ markerStart sentinel <+: s → markerComment? sentinel s = none := by
    intro s hs
    rw [markerComment?, after?_markerStart_eq_none hs]
    rfl
  rw [erase, pieces_chars (g := fun _ => ()) reduces_markerComment hread hnone hsentinel h,
    List.filterMap_map, content]
  congr 1
  funext p
  cases p <;> rfl

/-- A line without its markers is its content, at the end of the output too. -/
theorem cleaned_chars (isLast : Bool) : cleaned sentinel isLast (l.chars sentinel) = l.content := by
  rw [cleaned, erase_markerComment_chars hsentinel h]
  cases isLast with
  | false => rfl
  | true => rw [if_pos rfl, erase_of_silent (silent_of_not_marked h).2.2]

/-- A line yields its markers, and its content if it is kept. -/
theorem partOf_mixedLine (isLast : Bool) :
    partOf sentinel isLast (l.chars sentinel) = .ok l.part := by
  have horigins : (l.markers.map InsertedMarker.readFields).mapM originOf? =
      .ok (l.markers.map fun m => some m.origin) := by
    rw [List.mapM_map]
    exact mapM_eq_ok fun m _ => m.originOf?_readFields
  have hkept : (if l.content != l.chars sentinel && l.content.all isBlank then none
      else some (String.ofList l.content)) =
      if l.isKept then some (String.ofList l.content) else none := by
    rw [content_bne_chars, isKept]
    cases l.markers.isEmpty <;> cases l.content.all isBlank <;> rfl
  unfold partOf
  rw [collect_marker_chars hsentinel h, horigins, cleaned_chars hsentinel h]
  simp only [bind, Except.bind, pure, Except.pure, hkept, part]
  rw [List.filterMap_map]
  congr 2
  exact congrFun (List.filterMap_eq_map (f := InsertedMarker.origin)) l.markers

end

/-- A line has no line feed inside. -/
theorem feed_not_mem_chars {sentinel : List Char} (hsentinel : '\n' ∉ sentinel) {l : MixedLine}
    (h : '\n' ∉ l.content) : '\n' ∉ l.chars sentinel := by
  induction l with
  | nil => exact List.not_mem_nil
  | cons p l ih =>
    cases p with
    | plain c =>
      rw [content_plain, List.mem_cons, not_or] at h
      rw [chars_plain, List.mem_cons, not_or]
      exact ⟨h.1, ih h.2⟩
    | form m =>
      rw [chars_form]
      exact List.not_mem_append (m.chars_ok hsentinel).1 (ih h)

/-- A line ends with a carriage return only where its content does. -/
theorem getLast?_content {sentinel : List Char} (hsentinel : '\n' ∉ sentinel) {l : MixedLine}
    (h : (l.chars sentinel).getLast? = some '\r') : l.content.getLast? = some '\r' := by
  induction l with
  | nil => exact h
  | cons p l ih =>
    cases hlast : (chars sentinel l).getLast? with
    | none =>
      -- The line ends with its first piece, which is no marker.
      have hchars : chars sentinel l = [] := List.getLast?_eq_none_iff.mp hlast
      have hcontent : content l = [] := by
        have hlen := length_content_le sentinel l
        rw [hchars] at hlen
        exact List.length_eq_zero_iff.mp (Nat.le_zero.mp hlen)
      cases p with
      | plain c =>
        rw [chars_plain, hchars] at h
        rw [content_plain, hcontent]
        exact h
      | form m =>
        rw [chars_form, hchars, List.append_nil] at h
        exact absurd h (m.chars_ok hsentinel).2
    | some d =>
      have hd : d = '\r' := by
        cases p with
        | plain c =>
          rw [chars_plain, List.getLast?_cons, hlast] at h
          exact Option.some.inj h
        | form m =>
          rw [chars_form, List.getLast?_append, hlast] at h
          exact Option.some.inj h
      have hcontent := ih (hlast.trans (congrArg some hd))
      cases p with
      | plain c =>
        rw [content_plain, List.getLast?_cons, hcontent]
        rfl
      | form m => exact hcontent

end MixedLine

/-! ## The raw output -/

/-- The end of a line. -/
inductive LineEnd where
  | feed
  | returnFeed
  deriving DecidableEq

/-- The characters of a line end. -/
def LineEnd.chars : LineEnd → List Char
  | feed => ['\n']
  | returnFeed => ['\r', '\n']

/-- A raw output. -/
structure Interleaving where
  /-- The lines before the last one, with their ends. -/
  firsts : List (MixedLine × LineEnd)
  /-- The last line. -/
  last : MixedLine

namespace Interleaving

/-- The lines of the raw output. -/
def lines (t : Interleaving) : List MixedLine := t.firsts.map Prod.fst ++ [t.last]

/-- The raw output as a text. -/
def text (sentinel : String) (t : Interleaving) : String :=
  String.ofList (t.firsts.flatMap (fun p => p.1.chars sentinel.toList ++ p.2.chars) ++
    t.last.chars sentinel.toList)

/-- The lines that are kept, without their markers. -/
def kept (t : Interleaving) : List String :=
  (t.lines.filter MixedLine.isKept).map fun l => String.ofList l.content

/-- The entries of the markers in their order: each counts from the line after those kept before
its own line, and is dropped when no line is kept from its own on. -/
def entries (t : Interleaving) : List TraceEntry :=
  t.lines.zipIdx.flatMap fun (l, i) =>
    if (t.lines.drop i).any MixedLine.isKept then
      l.markers.map fun m => ⟨1 + (t.lines.take i).countP MixedLine.isKept, m.origin⟩
    else []

/-- The lines of the text are the lines of the raw output. -/
theorem lines_text {sentinel : String} (hsentinel : '\n' ∉ sentinel.toList) {t : Interleaving}
    (h : ∀ l ∈ t.lines, l.Sound sentinel.toList) :
    Text.lines (t.text sentinel).toList = t.lines.map (MixedLine.chars sentinel.toList) := by
  obtain ⟨firsts, last⟩ := t
  rw [text, String.toList_ofList]
  induction firsts with
  | nil =>
    have hlast := h last (by simp [lines])
    exact lines_of_not_mem (MixedLine.feed_not_mem_chars hsentinel hlast.feed)
  | cons p firsts ih =>
    obtain ⟨l, lineEnd⟩ := p
    have hl := h l (by simp [lines])
    have hfeed := MixedLine.feed_not_mem_chars hsentinel hl.feed
    have hreturn : (l.chars sentinel.toList).getLast? ≠ some '\r' := fun hlast =>
      hl.returnEnd (MixedLine.getLast?_content hsentinel hlast)
    have hrest := ih fun m hm => h m (List.mem_cons_of_mem l hm)
    rw [List.flatMap_cons, List.append_assoc, List.append_assoc]
    cases lineEnd with
    | feed =>
      rw [LineEnd.chars, List.singleton_append, lines_append_feed hfeed,
        dropReturn_of_getLast? hreturn, hrest]
      rfl
    | returnFeed =>
      have hline : ∀ s, l.chars sentinel.toList ++ (LineEnd.returnFeed.chars ++ s) =
          (l.chars sentinel.toList ++ ['\r']) ++ '\n' :: s := by
        simp [LineEnd.chars]
      rw [hline, lines_append_feed (by simpa using hfeed), hrest]
      simp [dropReturn, lines]

/-- The entries along the lines, where `i` is the number of the next line that is kept, in closed
form. -/
theorem numberedFrom_part (ls : List MixedLine) (i : Nat) :
    numberedFrom i (ls.map MixedLine.part) =
      ls.zipIdx.flatMap fun p =>
        p.1.markers.map fun m => ⟨i + (ls.take p.2).countP MixedLine.isKept, m.origin⟩ := by
  induction ls generalizing i with
  | nil => rfl
  | cons l ls ih =>
    have hkept : l.part.kept.isSome = l.isKept := by
      unfold MixedLine.part
      cases l.isKept <;> rfl
    have hcount : ∀ k, i + (if l.isKept then 1 else 0) + (ls.take k).countP MixedLine.isKept =
        i + ((l :: ls).take (k + 1)).countP MixedLine.isKept := by
      intro k
      rw [List.take_succ_cons, List.countP_cons]
      omega
    rw [List.map_cons, numberedFrom, ih, List.zipIdx_cons', List.flatMap_cons, List.flatMap_map,
      hkept]
    congr 1
    · rw [MixedLine.part, List.map_map]
      rfl
    · simp only [hcount, Prod.map_fst, Prod.map_snd, id_eq]

/-- A raw output is split into the lines that are kept, without their markers, and the entries of
the markers. -/
theorem split_interleaving {sentinel : String} (hlt : '<' ∉ sentinel.toList)
    (hfeed : '\n' ∉ sentinel.toList) {t : Interleaving}
    (h : ∀ l ∈ t.lines, l.Sound sentinel.toList) :
    split sentinel (t.text sentinel) = .ok ⟨t.kept, t.entries⟩ := by
  have hparts : partsOf sentinel.toList (t.lines.map (MixedLine.chars sentinel.toList)) =
      .ok (t.lines.map MixedLine.part) :=
    partsOf_map (fun l hl => MixedLine.partOf_mixedLine hlt (h l hl).unmarked false)
      fun l hl => MixedLine.partOf_mixedLine hlt (h l (List.mem_of_getLast? hl)).unmarked true
  have hkept : (t.lines.map MixedLine.part).filterMap Part.kept = t.kept := by
    rw [kept, List.filterMap_map, ← List.filterMap_eq_map, List.filterMap_filter]
    rfl
  -- An entry is dropped exactly when no line is kept from its own on.
  have hdropped : ∀ i, decide (1 + (t.lines.take i).countP MixedLine.isKept ≤ t.kept.length) =
      (t.lines.drop i).any MixedLine.isKept := by
    intro i
    have hlength : t.kept.length = (t.lines.take i).countP MixedLine.isKept +
        (t.lines.drop i).countP MixedLine.isKept := by
      rw [kept, List.length_map, ← List.countP_eq_length_filter, ← List.countP_append,
        List.take_append_drop]
    rw [Bool.eq_iff_iff, decide_eq_true_iff, List.any_eq_true, hlength, Nat.add_comm 1,
      Nat.add_le_add_iff_left, Nat.succ_le_iff, List.countP_pos_iff]
  have hentries : (numbered (t.lines.map MixedLine.part)).filter
      (fun e => e.outputLine ≤ t.kept.length) = t.entries := by
    rw [numbered_eq, numberedFrom_part, List.filter_flatMap, entries]
    congr 1
    funext p
    simp only [List.filter_map, Function.comp_def, hdropped]
    cases (t.lines.drop p.2).any MixedLine.isKept <;> simp
  rw [split, lines_text hfeed h, hparts]
  simp only [Except.map, hkept, hentries]

/-- A marker of a line of a small stylesheet. -/
def sampleMarker (n : Fin 9) : InsertedMarker where
  file := "f.xsl".toList
  line := n + 1
  element := "e".toList
  file_ok := List.all_iff_forall_prop.mp (by decide)
  file_open := by decide
  line_pos := Nat.le_add_left 1 n
  line_lt := Nat.lt_of_lt_of_le (Nat.succ_lt_succ n.isLt) (by decide +kernel)
  element_ok := by decide
  element_open := by decide

/-- A raw output with a marker on a line of its own, two markers inside a line, a blank line and a
marker at the end. -/
def sample : Interleaving where
  firsts :=
    [("  ".toList.map .plain ++ [.form (sampleMarker 2)], .returnFeed),
      ("<a>".toList.map .plain ++ .form (sampleMarker 3) :: ("<b/>".toList.map .plain ++
        .form (sampleMarker 4) :: "</a>".toList.map .plain), .feed),
      ([], .feed)]
  last := [.form (sampleMarker 5)]

/-- The markers of the sample are taken out, and the one at the end has no entry. -/
theorem split_interleaving_sample :
    sample.text "T" = "  <!--T|f.xsl|3|e-->\r\n" ++
      "<a><!--T|f.xsl|4|e--><b/><!--T|f.xsl|5|e--></a>\n\n<!--T|f.xsl|6|e-->" ∧
    split "T" (sample.text "T") = .ok ⟨["<a><b/></a>", ""],
      [⟨1, "f.xsl", 3, "e"⟩, ⟨1, "f.xsl", 4, "e"⟩, ⟨1, "f.xsl", 5, "e"⟩]⟩ := by
  have hlines : ∀ l ∈ sample.lines, '\n' ∉ l.content ∧ l.content.getLast? ≠ some '\r' ∧
      ¬ markerStart "T".toList <:+: l.content := by decide +kernel
  have hsound : ∀ l ∈ sample.lines, l.Sound "T".toList := fun l hl =>
    ⟨(hlines l hl).1, (hlines l hl).2.1, (hlines l hl).2.2⟩
  have hsplit := @split_interleaving "T" (by decide) (by decide) sample hsound
  have hkept : sample.kept = ["<a><b/></a>", ""] := by decide +kernel
  have hentries : sample.entries =
      [⟨1, "f.xsl", 3, "e"⟩, ⟨1, "f.xsl", 4, "e"⟩, ⟨1, "f.xsl", 5, "e"⟩] := by
    decide +kernel
  rw [hkept, hentries] at hsplit
  exact ⟨by decide +kernel, hsplit⟩

end Interleaving

end StylesheetTrace.Output
