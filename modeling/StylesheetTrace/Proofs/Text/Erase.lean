import StylesheetTrace.Proofs.Text.Scan

/-!
# What is left of a text without its forms

A text without its forms is made of the characters at which nothing is read. So it is no longer
than the text, and shorter by every form (`length_erase_add_count_le`). Where it goes on, the text
goes on in the same way, up to the next form: this holds of the tails of what is left
(`exists_of_suffix_erase`), of a word at its head (`prefix_of_prefix_erase`) and of its last
character (`exists_of_getLast?_erase`). Only at the place of a form may two characters meet that
stand apart in the text.
-/

namespace StylesheetTrace.Text

section

variable {α : Type} {r : Reader α}

/-- The reader takes at least one character, and leaves a tail of the text. -/
def Advances (r : Reader α) : Prop :=
  ∀ s a rest, r s = some (a, rest) → ∃ c t, s = c :: t ∧ rest <:+ t

/-- What a reader that advances leaves is a tail of the text. -/
theorem Advances.suffix (hr : Advances r) {s : List Char} {a : α} {rest : List Char}
    (h : r s = some (a, rest)) : rest <:+ s := by
  obtain ⟨c, t, rfl, hrest⟩ := hr s a rest h
  exact hrest.trans (List.suffix_cons c t)

/-- A reader that advances takes at least one character. -/
theorem Advances.reduces (hr : Advances r) : Reduces r :=
  reduces_of_suffix hr

/-- A character at which nothing is read is kept. -/
theorem erase_cons_of_none {c : Char} {s : List Char} (h : r (c :: s) = none) :
    erase r (c :: s) = c :: erase r s :=
  erase_append_of_silent (t := [c]) ⟨h, trivial⟩

/-- A text without its forms is part of it. -/
theorem erase_sublist (hr : Advances r) (s : List Char) : (erase r s).Sublist s := by
  induction s using scan_induction hr.reduces with
  | nil => exact List.Sublist.slnil
  | plain c s h ih =>
    rw [erase_cons_of_none h]
    exact ih.cons_cons c
  | form s a rest h ih =>
    rw [erase_of_some hr.reduces h]
    exact ih.trans (hr.suffix h).sublist

/-- Each form of a text takes at least one character of it. -/
theorem length_erase_add_count_le (hr : Reduces r) (s : List Char) :
    (erase r s).length + count r s ≤ s.length := by
  unfold count
  induction s using scan_induction hr with
  | nil => exact Nat.le_refl 0
  | plain c s h ih =>
    rw [erase_cons_of_none h, collect_cons_of_none h, List.length_cons, List.length_cons]
    omega
  | form s a rest h ih =>
    have hlen := hr s a rest h
    rw [erase_of_some hr h, collect_of_some hr h, List.length_cons]
    omega

/-- Nothing is read in a text exactly when it holds no form. -/
theorem silent_iff_hasForm (hr : Reduces r) {s : List Char} :
    Silent r s [] ↔ hasForm r s = false := by
  rw [hasForm_eq_false_iff hr]
  refine ⟨collect_of_silent, fun h => ?_⟩
  induction s using scan_induction hr with
  | nil => trivial
  | plain c s hnone ih =>
    rw [collect_cons_of_none hnone] at h
    exact ⟨by rwa [List.append_nil], ih h⟩
  | form s a rest hform ih =>
    rw [collect_of_some hr hform] at h
    exact absurd h (List.cons_ne_nil _ _)

/-- A text is what is left of it exactly when it holds no form. -/
theorem erase_eq_self_iff (hr : Reduces r) {s : List Char} :
    erase r s = s ↔ hasForm r s = false := by
  refine ⟨fun h => ?_, fun h => erase_of_silent ((silent_iff_hasForm hr).mpr h)⟩
  have hlen := length_erase_add_count_le hr s
  rw [h] at hlen
  rw [hasForm_eq_decide hr, decide_eq_false_iff_not]
  omega

/-- What is left of a text goes on from a character at which nothing is read. -/
theorem exists_of_suffix_erase (hr : Advances r) {s x : List Char} (hx : x <:+ erase r s)
    (hne : x ≠ []) : ∃ y, y <:+ s ∧ r y = none ∧ x = erase r y := by
  induction s using scan_induction hr.reduces with
  | nil => exact absurd (List.suffix_nil.mp hx) hne
  | plain c s h ih =>
    rw [erase_cons_of_none h] at hx
    rcases List.suffix_cons_iff.mp hx with rfl | hx
    · exact ⟨c :: s, List.suffix_refl _, h, (erase_cons_of_none h).symm⟩
    · obtain ⟨y, hy, hnone, rfl⟩ := ih hx
      exact ⟨y, hy.trans (List.suffix_cons c s), hnone, rfl⟩
  | form s a rest h ih =>
    rw [erase_of_some hr.reduces h] at hx
    obtain ⟨y, hy, hnone, rfl⟩ := ih hx
    exact ⟨y, hy.trans (hr.suffix h), hnone, rfl⟩

/-- A word with which what is left of a text begins stands at the head of the text, or a form cuts
it off there before its end. -/
theorem prefix_of_prefix_erase {w s : List Char} (hw : w <+: erase r s) :
    w <+: s ∨ ∃ u v t, w = u ++ v ∧ v ≠ [] ∧ s = u ++ t ∧ (r t).isSome = true := by
  induction w generalizing s with
  | nil => exact Or.inl List.nil_prefix
  | cons d w ih =>
    cases h : r s with
    | some found => exact Or.inr ⟨[], d :: w, s, rfl, List.cons_ne_nil d w, rfl, by rw [h]; rfl⟩
    | none =>
      cases s with
      | nil => exact Or.inl hw
      | cons c s =>
        rw [erase_cons_of_none h, List.cons_prefix_cons] at hw
        obtain ⟨rfl, hw⟩ := hw
        rcases ih hw with hbegins | ⟨u, v, t, rfl, hv, rfl, hform⟩
        · exact Or.inl (List.cons_prefix_cons.mpr ⟨rfl, hbegins⟩)
        · exact Or.inr ⟨d :: u, v, t, rfl, hv, rfl, hform⟩

/-- The last character of what is left of a text stands before a form or ends the text. -/
theorem exists_of_getLast?_erase (hr : Advances r) {s : List Char} {d : Char}
    (h : (erase r s).getLast? = some d) :
    ∃ u v, s = u ++ d :: v ∧ (v = [] ∨ (r v).isSome = true) := by
  induction s using scan_induction hr.reduces with
  | nil => exact absurd h (by simp [erase])
  | plain c s hnone ih =>
    rw [erase_cons_of_none hnone, List.getLast?_cons] at h
    cases hlast : (erase r s).getLast? with
    | some e =>
      rw [hlast] at h
      obtain rfl : e = d := Option.some.inj h
      obtain ⟨u, v, rfl, hv⟩ := ih hlast
      exact ⟨c :: u, v, rfl, hv⟩
    | none =>
      -- Nothing is left behind the character, so that the text ends there or goes on with a form.
      rw [hlast] at h
      obtain rfl : c = d := Option.some.inj h
      refine ⟨[], s, rfl, ?_⟩
      cases hs : r s with
      | some found => exact Or.inr rfl
      | none =>
        cases s with
        | nil => exact Or.inl rfl
        | cons e s =>
          rw [erase_cons_of_none hs] at hlast
          exact absurd hlast (by simp)
  | form s a rest hform ih =>
    rw [erase_of_some hr.reduces hform] at h
    obtain ⟨u, v, hrest, hv⟩ := ih h
    obtain ⟨t, rfl⟩ := hr.suffix hform
    exact ⟨t ++ u, v, by rw [hrest, List.append_assoc], hv⟩

end

end StylesheetTrace.Text
