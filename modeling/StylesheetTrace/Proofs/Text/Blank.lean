import Mathlib.Data.List.DropRight
import StylesheetTrace.Proofs.Text.Scan
import StylesheetTrace.Text.Blank
import StylesheetTrace.Text.Word

/-!
# Blanks at the ends of a text

Stripping leaves a text without blanks at its ends as it is, and takes nothing off a text that
stands before another and has none at its own ends. A blank is no word character.
-/

namespace StylesheetTrace.Text

/-- A text that begins with no blank loses none at its head. -/
theorem dropWhile_isBlank_eq_self {s : List Char} (h : ∀ c ∈ s.head?, isBlank c = false) :
    s.dropWhile isBlank = s := by
  cases s with
  | nil => rfl
  | cons c s => exact List.dropWhile_cons_of_neg (by simp [h c rfl])

/-- Blanks before a text that begins with none are dropped. -/
theorem dropWhile_blanks_append {t s : List Char} (ht : ∀ c ∈ t, isBlank c = true)
    (hs : ∀ c ∈ s.head?, isBlank c = false) : (t ++ s).dropWhile isBlank = s := by
  rw [dropWhile_append_of_head hs, List.dropWhile_eq_nil_iff.mpr ht, List.nil_append]

/-- A text that does not end with a blank loses only what stands behind it. -/
theorem dropEndWhile_append {s : List Char} (h : ∀ c ∈ s.getLast?, isBlank c = false)
    (t : List Char) : dropEndWhile isBlank (s ++ t) = s ++ dropEndWhile isBlank t := by
  rw [← List.head?_reverse] at h
  rw [dropEndWhile, dropEndWhile, List.reverse_append, dropWhile_append_of_head h,
    List.reverse_append, List.reverse_reverse]

/-- What is left without the end is the beginning of the text. -/
theorem dropEndWhile_isPrefix (p : Char → Bool) (s : List Char) : dropEndWhile p s <+: s := by
  have hsuffix := List.dropWhile_suffix (l := s.reverse) p
  rw [← List.reverse_prefix, List.reverse_reverse] at hsuffix
  exact hsuffix

/-- Of a text that neither begins nor ends with a blank, and a text behind it, only the second is
stripped. -/
theorem strip_append {s : List Char} (hne : s ≠ []) (hhead : ∀ c ∈ s.head?, isBlank c = false)
    (hlast : ∀ c ∈ s.getLast?, isBlank c = false) (t : List Char) :
    strip (s ++ t) = s ++ dropEndWhile isBlank t := by
  have hstart : (s ++ t).dropWhile isBlank = s ++ t := by
    refine dropWhile_isBlank_eq_self fun c hc => ?_
    cases s with
    | nil => exact absurd rfl hne
    | cons d s => exact hhead c (by simpa using hc)
  rw [strip, trimWhile, hstart, dropEndWhile_append hlast]

/-- A text that neither begins nor ends with a blank is not changed by stripping. -/
theorem strip_eq_self {s : List Char} (hhead : ∀ c ∈ s.head?, isBlank c = false)
    (hlast : ∀ c ∈ s.getLast?, isBlank c = false) : strip s = s := by
  have hend := dropEndWhile_append hlast []
  rw [List.append_nil] at hend
  rw [strip, trimWhile, dropWhile_isBlank_eq_self hhead, hend]
  exact List.append_nil s

/-- A text that is not changed by stripping begins with no blank. -/
theorem isBlank_head_of_strip_eq_self {s : List Char} (h : strip s = s) :
    ∀ c ∈ s.head?, isBlank c = false := by
  intro c hc
  obtain ⟨t, rfl⟩ := List.head?_eq_some_iff.mp hc
  rw [← Bool.not_eq_true]
  intro hblank
  -- A blank at the head is dropped, and what is left is shorter.
  have hshorter : (strip (c :: t)).length ≤ t.length := by
    rw [strip, trimWhile, List.dropWhile_cons_of_pos hblank]
    exact ((dropEndWhile_isPrefix _ _).length_le).trans (List.dropWhile_suffix _).length_le
  rw [h, List.length_cons] at hshorter
  omega

/-- A text without blanks is not changed by stripping. -/
theorem strip_of_forall_not {s : List Char} (h : ∀ c ∈ s, isBlank c = false) : strip s = s :=
  strip_eq_self (fun c hc => h c (List.mem_of_mem_head? hc)) fun c hc =>
    h c (List.mem_of_getLast? hc)

/-- A word that neither begins nor ends with a blank stays when a text is stripped. -/
theorem infix_strip_iff {c d : Char} {u w s : List Char} (hc : isBlank c = false)
    (hd : isBlank d = false) (hw : c :: u = w ++ [d]) : c :: u <:+: strip s ↔ c :: u <:+: s := by
  have hreverse : (c :: u).reverse = d :: w.reverse := by rw [hw, List.reverse_concat]
  rw [strip, trimWhile, dropEndWhile, ← List.reverse_infix, List.reverse_reverse, hreverse,
    infix_dropWhile_iff hd, ← hreverse, List.reverse_infix, infix_dropWhile_iff hc]

/-- Blanks that were dropped at the head are not missed by stripping. -/
theorem strip_dropWhile (s : List Char) : strip (s.dropWhile isBlank) = strip s := by
  rw [strip, strip, trimWhile, trimWhile, List.dropWhile_idempotent]

/-- A tail of a text is stripped to a tail of the stripped text. -/
theorem strip_suffix_strip {s t : List Char} (h : s <:+ t) : strip s <:+ strip t := by
  have hstart : s.dropWhile isBlank <:+ t.dropWhile isBlank := by
    cases hs : s.dropWhile isBlank with
    | nil => exact List.nil_suffix
    | cons c u =>
      have hc : isBlank c = false := by
        have hhead := List.head?_dropWhile_not isBlank s
        rw [hs] at hhead
        simpa using hhead
      exact suffix_dropWhile hc (hs ▸ (List.dropWhile_suffix isBlank).trans h)
  obtain ⟨front, hfront⟩ := hstart
  rw [strip, strip, trimWhile, trimWhile, ← hfront, dropEndWhile, dropEndWhile,
    List.reverse_suffix, List.reverse_append, List.dropWhile_append]
  split
  · rename_i hempty
    rw [List.isEmpty_iff.mp hempty]
    exact List.nil_prefix
  · exact List.prefix_append _ _

/-- The code points of the blanks. -/
def blankPoints : List Nat :=
  [9, 10, 11, 12, 13, 28, 29, 30, 31, 32, 0x85, 0xa0, 0x1680, 0x2000, 0x2001, 0x2002, 0x2003,
    0x2004, 0x2005, 0x2006, 0x2007, 0x2008, 0x2009, 0x200a, 0x2028, 0x2029, 0x202f, 0x205f, 0x3000]

/-- A blank is one of the code points of the blanks. -/
theorem mem_blankPoints_of_isBlank {c : Char} (h : isBlank c = true) : c.toNat ∈ blankPoints := by
  have hranges := of_decide_eq_true h
  simp only [blankPoints, List.mem_cons, List.not_mem_nil, or_false]
  omega

/-- A blank is no word character. -/
theorem isWord_eq_false_of_isBlank {c : Char} (h : isBlank c = true) : isWord c = false := by
  have hpoints : ∀ n ∈ blankPoints, isWord (Char.ofNat n) = false := by decide +kernel
  rw [← Char.ofNat_toNat c]
  exact hpoints _ (mem_blankPoints_of_isBlank h)

end StylesheetTrace.Text
