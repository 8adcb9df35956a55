import Mathlib.Data.List.Infix
import StylesheetTrace.Output.Split
import StylesheetTrace.Proofs.Text.Erase
import StylesheetTrace.Proofs.Text.Number

/-!
# Markers in a raw output

A marker is read back with its fields (`marker?_fields`), and its comment ends behind them
(`markerComment?_fields`), whatever the file is called: neither it nor the element ends the comment.
Where no marker begins, the readers of markers are silent.
-/

namespace StylesheetTrace.Output

open StylesheetTrace.Text

/-- What stands in a marker before its element, and before it on its line. -/
structure Stamp where
  /-- The blanks before the marker. -/
  indent : List Char
  /-- The path of the stylesheet. -/
  file : List Char
  /-- The line of the stylesheet. -/
  line : Nat
  deriving DecidableEq

/-- A stamp can be read back. -/
structure Stamp.Sound (p : Stamp) : Prop where
  /-- The blanks hold no line end. -/
  indent_ok : ∀ c ∈ p.indent, isBlank c = true ∧ c ≠ '\n'
  /-- The path holds no delimiter and does not end the line. -/
  file_ok : ∀ c ∈ p.file, c ≠ '|' ∧ c ≠ '\n'
  /-- The path does not end the comment. -/
  file_open : ¬ commentEnd <:+: p.file
  /-- The line is counted from 1. -/
  line_pos : 1 ≤ p.line
  /-- The line is one that is read. -/
  line_lt : p.line < 10 ^ TooLong.limit

/-- The place in the stylesheet that a marker names. -/
def Stamp.origin (p : Stamp) (element : List Char) : Origin :=
  ⟨String.ofList p.file, p.line, String.ofList element⟩

/-- The fields of a marker and the end of its comment. -/
def Stamp.fields (p : Stamp) (element : List Char) : List Char :=
  p.file ++ '|' :: (decimal p.line ++ '|' :: (element ++ commentEnd))

/-! ## Readers of markers -/

section

variable {sentinel : List Char}

/-- A marker does not end before its element does, unless its file holds the end of a comment. -/
theorem not_infix_fields {file row element : List Char} (hfile : ¬ commentEnd <:+: file)
    (hrow : ∀ c ∈ row, isDigit c = true) (helement : ¬ commentEnd <:+: element) :
    ¬ commentEnd <:+: file ++ '|' :: (row ++ '|' :: element) := by
  have hbar : '|' ∉ commentEnd := by decide
  have hline : ¬ commentEnd <:+: row := by
    intro h
    exact absurd (hrow _ (h.subset (a := '-') (by decide))) (by decide)
  -- The delimiters part the fields, and none of these holds the end of a comment.
  intro h
  rcases infix_of_infix_append_cons hbar h with h | h
  · exact hfile h
  · rcases infix_of_infix_append_cons hbar h with h | h
    · exact hline h
    · exact helement h

/-- A marker is read with its fields, however many digits its line has. -/
theorem marker?_row {file row element : List Char} (hfile : '|' ∉ file)
    (hrow : ∀ c ∈ row, isDigit c = true) (hne : row ≠ [])
    (helement : ¬ commentEnd <:+: element) (s : List Char) :
    marker? sentinel (markerStart sentinel ++
        (file ++ '|' :: (row ++ '|' :: (element ++ (commentEnd ++ s))))) =
      some ((file, row, element), s) := by
  have hend : commentEnd = ['-', '-'] ++ ['>'] := rfl
  have hnotdigit : ∀ t, ∀ c ∈ ('|' :: t).head?, isDigit c = false :=
    head?_cons_eq_false (by decide)
  have hcut (t : List Char) : cut? ['|'] (file ++ '|' :: t) = some (file, t) :=
    cut?_append (v := []) List.not_mem_nil (by rwa [List.nil_append, List.singleton_infix_iff]) t
  have htake (t : List Char) : (row ++ '|' :: t).takeWhile isDigit = row := by
    rw [takeWhile_append_of_head (hnotdigit t), List.takeWhile_eq_self_iff.mpr hrow]
  have hdrop (t : List Char) : (row ++ '|' :: t).dropWhile isDigit = '|' :: t := by
    rw [dropWhile_append_of_head (hnotdigit t), List.dropWhile_eq_nil_iff.mpr hrow, List.nil_append]
  have helem : cut? commentEnd (element ++ (commentEnd ++ s)) = some (element, s) := by
    rw [hend] at helement ⊢
    exact cut?_append (by decide) helement s
  have hempty : row.isEmpty = false := by simpa using hne
  unfold marker?
  rw [after?_append]
  simp only [Option.bind_eq_bind, Option.bind_some, hcut, htake, hdrop, after?_cons_cons,
    after?_nil, hempty, Bool.false_eq_true, if_false, helem]

/-- A marker is read with its fields. -/
theorem marker?_fields {p : Stamp} (hp : p.Sound) {element : List Char}
    (helement : ¬ commentEnd <:+: element) (s : List Char) :
    marker? sentinel (markerStart sentinel ++ (p.fields element ++ s)) =
      some ((p.file, decimal p.line, element), s) := by
  have hfields : p.fields element ++ s =
      p.file ++ '|' :: (decimal p.line ++ '|' :: (element ++ (commentEnd ++ s))) := by
    simp [Stamp.fields]
  rw [hfields]
  exact marker?_row (fun h => (hp.file_ok _ h).1 rfl)
    (fun c hc => isDigit_of_isDigit (isDigit_of_mem_decimal hc)) (decimal_ne_nil _) helement s

/-- The comment of a marker is read up to its end. -/
theorem markerComment?_fields {p : Stamp} (hp : p.Sound) {element : List Char}
    (helement : ¬ commentEnd <:+: element) (s : List Char) :
    markerComment? sentinel (markerStart sentinel ++ (p.fields element ++ s)) = some ((), s) := by
  have hend : commentEnd = ['-', '-'] ++ ['>'] := rfl
  have hfields : p.fields element ++ s =
      (p.file ++ '|' :: (decimal p.line ++ '|' :: element)) ++ (commentEnd ++ s) := by
    simp [Stamp.fields]
  have hafter := not_infix_fields hp.file_open
    (fun c hc => isDigit_of_isDigit (isDigit_of_mem_decimal (n := p.line) hc)) helement
  rw [hend] at hafter
  unfold markerComment?
  rw [hfields, after?_append]
  simp only [Option.bind_eq_bind, Option.bind_some]
  rw [hend, afterFirst?_append (by decide) hafter s]
  rfl

/-- What a marker is made of: its fields, which neither the delimiters nor the end of the comment
cut short, up to the end of the comment. -/
theorem marker?_eq_some {s file row element rest : List Char} :
    marker? sentinel s = some ((file, row, element), rest) ↔
      s = markerStart sentinel ++
          (file ++ '|' :: (row ++ '|' :: (element ++ (commentEnd ++ rest)))) ∧
        '|' ∉ file ∧ (∀ c ∈ row, isDigit c = true) ∧ row ≠ [] ∧ ¬ commentEnd <:+: element := by
  constructor
  · intro h
    unfold marker? at h
    obtain ⟨t, ht, h⟩ := Option.bind_eq_some_iff.mp h
    obtain ⟨⟨file', v⟩, hfile, h⟩ := Option.bind_eq_some_iff.mp h
    obtain ⟨w, hrow, h⟩ := Option.bind_eq_some_iff.mp h
    split at h
    · exact absurd h (by simp)
    · rename_i hne
      obtain ⟨⟨element', x⟩, helement, h⟩ := Option.bind_eq_some_iff.mp h
      obtain ⟨hfields, rfl⟩ := Prod.mk.inj (Option.some.inj h)
      obtain ⟨rfl, hbehind⟩ := Prod.mk.inj hfields
      obtain ⟨rfl, rfl⟩ := Prod.mk.inj hbehind
      obtain ⟨rfl, hbar⟩ := cut?_eq_some (by decide) hfile
      obtain ⟨rfl, hend⟩ := cut?_eq_some (by decide) helement
      refine ⟨?_, ?_, fun c hc => List.mem_takeWhile_imp hc, by simpa using hne, hend⟩
      · -- The digits are the first part of what stands behind the file.
        have hdigits : v = v.takeWhile isDigit ++ '|' :: (element' ++ (commentEnd ++ x)) := by
          rw [← List.singleton_append (x := '|'), ← after?_eq_some.mp hrow,
            List.takeWhile_append_dropWhile]
        rw [after?_eq_some.mp ht, ← hdigits]
        rfl
      · rwa [List.singleton_infix_iff] at hbar
  · rintro ⟨rfl, hfile, hrow, hne, helement⟩
    exact marker?_row hfile hrow hne helement rest

/-- A comment that begins like a marker is read up to the first end of a comment. -/
theorem markerComment?_eq_some {s rest : List Char} {a : Unit} :
    markerComment? sentinel s = some (a, rest) ↔
      ∃ t, s = markerStart sentinel ++ t ∧ afterFirst? commentEnd t = some rest := by
  unfold markerComment?
  constructor
  · intro h
    obtain ⟨t, ht, h⟩ := Option.bind_eq_some_iff.mp h
    obtain ⟨v, hv, h⟩ := Option.bind_eq_some_iff.mp h
    obtain ⟨-, rfl⟩ := Prod.mk.inj (Option.some.inj h)
    exact ⟨t, after?_eq_some.mp ht, hv⟩
  · rintro ⟨t, rfl, hv⟩
    refine Option.bind_eq_some_iff.mpr ⟨t, after?_append _ t, ?_⟩
    exact Option.bind_eq_some_iff.mpr ⟨rest, hv, rfl⟩

/-- What begins like a marker leaves a tail of what stands behind its beginning. -/
theorem exists_of_suffix_markerStart {t rest : List Char} (h : rest <:+ t) :
    ∃ c u, markerStart sentinel ++ t = c :: u ∧ rest <:+ u := by
  have hstart : markerStart sentinel = '<' :: (['!', '-', '-'] ++ sentinel ++ ['|']) := rfl
  rw [hstart, List.cons_append]
  exact ⟨'<', _, rfl, h.trans (List.suffix_append _ t)⟩

/-- A marker takes at least one character. -/
theorem advances_marker : Advances (marker? sentinel) := by
  rintro s ⟨file, row, element⟩ rest h
  obtain ⟨rfl, -⟩ := marker?_eq_some.mp h
  refine exists_of_suffix_markerStart ?_
  have hfields : file ++ '|' :: (row ++ '|' :: (element ++ (commentEnd ++ rest))) =
      (file ++ '|' :: (row ++ '|' :: (element ++ commentEnd))) ++ rest := by
    simp
  exact hfields ▸ List.suffix_append _ rest

/-- A comment that begins like a marker takes at least one character. -/
theorem advances_markerComment : Advances (markerComment? sentinel) := by
  intro s a rest h
  obtain ⟨t, rfl, hrest⟩ := markerComment?_eq_some.mp h
  exact exists_of_suffix_markerStart (suffix_of_afterFirst? hrest)

/-- A marker that is cut off takes the rest of the text. -/
theorem advances_danglingMarker : Advances (danglingMarker? sentinel) := by
  intro s a rest h
  unfold danglingMarker? at h
  obtain ⟨t, ht, h⟩ := Option.bind_eq_some_iff.mp h
  split at h
  · exact absurd h (by simp)
  · obtain ⟨-, rfl⟩ := Prod.mk.inj (Option.some.inj h)
    rw [after?_eq_some.mp ht]
    exact exists_of_suffix_markerStart List.nil_suffix

/-- A marker takes at least one character. -/
theorem reduces_marker : Reduces (marker? sentinel) :=
  advances_marker.reduces

/-- A comment that begins like a marker takes at least one character. -/
theorem reduces_markerComment : Reduces (markerComment? sentinel) :=
  advances_markerComment.reduces

/-- Where no marker begins, none is read. -/
theorem after?_markerStart_eq_none {s : List Char} (h : ¬ markerStart sentinel <+: s) :
    after? (markerStart sentinel) s = none := by
  rw [Option.eq_none_iff_forall_not_mem]
  intro t ht
  exact h ⟨t, (after?_eq_some.mp ht).symm⟩

/-- No marker is read in a line in which none begins. -/
theorem silent_of_not_marked {line : List Char} (h : ¬ markerStart sentinel <:+: line) :
    Silent (marker? sentinel) line [] ∧ Silent (markerComment? sentinel) line [] ∧
      Silent (danglingMarker? sentinel) line [] := by
  refine ⟨silent_of_not_isInfix (fun s hs => ?_) h, silent_of_not_isInfix (fun s hs => ?_) h,
    silent_of_not_isInfix (fun s hs => ?_) h⟩
  · rw [marker?, after?_markerStart_eq_none hs]
    rfl
  · rw [markerComment?, after?_markerStart_eq_none hs]
    rfl
  · rw [danglingMarker?, after?_markerStart_eq_none hs]
    rfl

/-- No marker is read among the blanks before one. -/
theorem Stamp.Sound.silent_indent {p : Stamp} (hp : p.Sound) (s : List Char) :
    Silent (marker? sentinel) p.indent s ∧ Silent (markerComment? sentinel) p.indent s := by
  have hlt : '<' ∉ p.indent := by
    intro h
    exact absurd (hp.indent_ok _ h).1 (by decide)
  have hne : ∀ c t, c ≠ '<' → after? (markerStart sentinel) (c :: t) = none := by
    intro c t hc
    have hstart : markerStart sentinel = '<' :: (['!', '-', '-'] ++ sentinel ++ ['|']) := by
      simp [markerStart]
    rw [hstart]
    exact after?_cons_of_ne (Ne.symm hc) _ t
  constructor
  · refine silent_of_not_mem (fun c t hc => ?_) hlt s
    rw [marker?, hne c t hc]
    rfl
  · refine silent_of_not_mem (fun c t hc => ?_) hlt s
    rw [markerComment?, hne c t hc]
    rfl

end

end StylesheetTrace.Output
