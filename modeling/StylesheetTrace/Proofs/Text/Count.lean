import Mathlib.Algebra.GroupWithZero.Nat
import StylesheetTrace.Proofs.Text.Scan

/-!
# How often a word stands in a text

A word is counted from the left, and without overlap. At a character that does not stand in it the
count falls into that of the two sides (`occurrences_append_cons`). A word whose last character
stands nowhere else in it is counted once for each of these characters before which the rest of it
stands (`occurrences_append_last`).
-/

namespace StylesheetTrace.Text

/-- The reader of a word. -/
def wordReader (w : List Char) : Reader Unit := fun s => (after? w s).map ((), ·)

/-- How often a word stands in a text. -/
def occurrences (w s : List Char) : Nat := count (wordReader w) s

/-- A word is read where it stands. -/
theorem wordReader_eq_some {w s rest : List Char} {a : Unit} :
    wordReader w s = some (a, rest) ↔ s = w ++ rest := by
  rw [wordReader, Option.map_eq_some_iff, ← after?_eq_some]
  simp

/-- No word is read where it does not stand. -/
theorem wordReader_eq_none {w s : List Char} : wordReader w s = none ↔ ¬ w <+: s := by
  rw [wordReader, Option.map_eq_none_iff, Option.eq_none_iff_forall_not_mem]
  simp only [Option.mem_def, after?_eq_some]
  exact ⟨fun h ⟨rest, hrest⟩ => h rest hrest.symm, fun h rest hrest => h ⟨rest, hrest.symm⟩⟩

section

variable {w : List Char} (hw : w ≠ [])

include hw

/-- A word that is not empty takes at least one character. -/
theorem reduces_wordReader : Reduces (wordReader w) := by
  intro s a rest h
  rw [wordReader_eq_some.mp h, List.length_append]
  have := List.length_pos_iff.mpr hw
  omega

/-- A word that stands at the head of a text is counted before those behind it. -/
theorem occurrences_append_self (s : List Char) :
    occurrences w (w ++ s) = occurrences w s + 1 := by
  have hread : wordReader w (w ++ s) = some ((), s) := wordReader_eq_some.mpr rfl
  rw [occurrences, count, collect_of_some (reduces_wordReader hw) hread]
  rfl

omit hw in
/-- A character at which the word does not begin is passed over. -/
theorem occurrences_cons {c : Char} {s : List Char} (h : ¬ w <+: c :: s) :
    occurrences w (c :: s) = occurrences w s := by
  rw [occurrences, count, collect_cons_of_none (wordReader_eq_none.mpr h)]
  rfl

/-- A word is counted where it occurs. -/
theorem occurrences_eq_zero {s : List Char} : occurrences w s = 0 ↔ ¬ w <:+: s := by
  have hform : hasForm (wordReader w) s = true ↔ w <:+: s := by
    rw [hasForm_iff, List.infix_iff_prefix_suffix]
    refine exists_congr fun u => ?_
    rw [Option.isSome_iff_ne_none, ne_eq, wordReader_eq_none, not_not, and_comm]
  rw [← hform, hasForm_eq_decide (reduces_wordReader hw), decide_eq_true_eq, occurrences,
    Nat.pos_iff_ne_zero, not_not]

/-- A word with a character that does not stand in a text is not counted there. -/
theorem occurrences_of_not_mem {d : Char} (hd : d ∈ w) {s : List Char} (hs : d ∉ s) :
    occurrences w s = 0 :=
  (occurrences_eq_zero hw).mpr fun h => hs (h.subset hd)

/-- At a character that does not stand in the word the count falls into that of the two sides. -/
theorem occurrences_append_cons {d : Char} (hd : d ∉ w) (u v : List Char) :
    occurrences w (u ++ d :: v) = occurrences w u + occurrences w v := by
  have hbegins : ∀ t, w <+: t ++ d :: v → w <+: t := by
    rintro t ⟨rest, hrest⟩
    obtain ⟨b, rfl, -⟩ := append_cons_eq_append hd hrest.symm
    exact List.prefix_append w b
  induction u using scan_induction (reduces_wordReader hw) with
  | nil =>
    have hnone : ¬ w <+: d :: v := fun h => hw (List.prefix_nil.mp (hbegins [] h))
    have hempty : occurrences w [] = 0 := rfl
    rw [List.nil_append, occurrences_cons hnone, hempty, Nat.zero_add]
  | plain c s hread ih =>
    have hnone := wordReader_eq_none.mp hread
    have hnone' : ¬ w <+: c :: (s ++ d :: v) := fun h => hnone (hbegins (c :: s) h)
    rw [List.cons_append, occurrences_cons hnone', occurrences_cons hnone, ih]
  | form s a rest hread ih =>
    rw [wordReader_eq_some.mp hread, List.append_assoc, occurrences_append_self hw,
      occurrences_append_self hw, ih]
    omega

end

/-- A word that ends with a character, and has it nowhere else, is counted at each of these
characters before which the rest of the word stands. -/
theorem occurrences_append_last {t u : List Char} {d : Char} (ht : d ∉ t) (hu : d ∉ u)
    (v : List Char) : occurrences (t ++ [d]) (u ++ d :: v) =
      (if t <:+ u then 1 else 0) + occurrences (t ++ [d]) v := by
  have hw : t ++ [d] ≠ [] := by simp
  -- The word begins at a place before the character only if it ends with it.
  have hbegins : ∀ u, d ∉ u → t ++ [d] <+: u ++ d :: v → t = u := by
    rintro u hu ⟨rest, hrest⟩
    rw [List.append_assoc] at hrest
    obtain ⟨b, rfl, hb⟩ := append_cons_eq_append ht hrest.symm
    cases b with
    | nil => rw [List.append_nil]
    | cons c b =>
      obtain rfl : d = c := (List.cons.inj hb).1
      exact absurd (List.mem_append_right t List.mem_cons_self) hu
  have hcount : occurrences (t ++ [d]) (t ++ d :: v) = occurrences (t ++ [d]) v + 1 := by
    rw [← occurrences_append_self hw, List.append_assoc, List.singleton_append]
  induction u with
  | nil =>
    by_cases hempty : t = []
    · subst hempty
      rw [if_pos List.nil_suffix, hcount, Nat.add_comm]
    · rw [if_neg fun h => hempty (List.suffix_nil.mp h), List.nil_append,
        occurrences_cons fun h => hempty (hbegins [] hu h), Nat.zero_add]
  | cons c u ih =>
    by_cases hwhole : t = c :: u
    · rw [if_pos (hwhole ▸ List.suffix_refl t), ← hwhole, hcount, Nat.add_comm]
    · have htail : t <:+ c :: u ↔ t <:+ u := List.suffix_cons_iff.trans (or_iff_right hwhole)
      have hnone : ¬ t ++ [d] <+: c :: (u ++ d :: v) := fun h => hwhole (hbegins (c :: u) hu h)
      rw [List.cons_append, occurrences_cons hnone, ih fun h => hu (List.mem_cons_of_mem c h)]
      simp only [htail]

end StylesheetTrace.Text
