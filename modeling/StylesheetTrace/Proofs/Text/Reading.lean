import StylesheetTrace.Proofs.Text.Span

/-!
# Where a text is read

What a search through a text gives was read at the head of one of its tails: that holds of the first
form (`exists_of_firstForm?`), of the forms that are collected (`exists_of_mem_forms`) and of the form
that a line holds (`inLine?_eq_some`). A run of characters is read as a whole: no further one follows
it (`run?_eq_some`).
-/

namespace StylesheetTrace.Text

section

variable {α : Type} {r : Reader α}

/-- The first form is read at the head of a tail of the text. -/
theorem exists_of_firstForm? {s : List Char} {a : α} (h : firstForm? r s = some a) :
    ∃ t rest, t <:+ s ∧ r t = some (a, rest) := by
  obtain ⟨⟨u, b, rest⟩, hleftmost, rfl⟩ := Option.map_eq_some_iff.mp h
  obtain ⟨t, ht, hread⟩ := exists_of_leftmost? hleftmost
  exact ⟨t, rest, ht, hread⟩

/-- A form that is collected is read at the head of a tail of the text. -/
theorem exists_of_mem_forms (hr : Advances r) {s : List Char} {a : α} (h : a ∈ collect r s) :
    ∃ t rest, t <:+ s ∧ r t = some (a, rest) := by
  rw [← map_form_collect hr] at h
  obtain ⟨p, hp, rfl⟩ := List.mem_map.mp h
  obtain ⟨htail, hread⟩ := read_of_mem hr hp
  exact ⟨p.tail, p.rest, htail, hread⟩

/-- The form of a line is read at the head of a tail of the text that begins on the line. -/
theorem inLine?_eq_some {s rest : List Char} {a : α} (h : inLine? r s = some (a, rest)) :
    ∃ u t, s = u ++ t ∧ '\n' ∉ u ∧ r t = some (a, rest) := by
  induction s with
  | nil => exact ⟨[], [], rfl, List.not_mem_nil, h⟩
  | cons c s ih =>
    rw [inLine?] at h
    split at h
    · rename_i form hform
      obtain rfl := Option.some.inj h
      exact ⟨[], c :: s, rfl, List.not_mem_nil, hform⟩
    · split at h
      · exact absurd h (by simp)
      · rename_i hc
        obtain ⟨u, t, rfl, hu, hread⟩ := ih h
        refine ⟨c :: u, t, rfl, ?_, hread⟩
        rw [List.mem_cons, not_or]
        exact ⟨fun heq => hc (beq_iff_eq.mpr heq.symm), hu⟩

/-- A line holds a form exactly when one is read at the head of a tail that begins on the line. -/
theorem isSome_inLine?_iff {s : List Char} :
    (inLine? r s).isSome = true ↔ ∃ u t, s = u ++ t ∧ '\n' ∉ u ∧ (r t).isSome = true := by
  constructor
  · intro h
    obtain ⟨⟨a, rest⟩, hform⟩ := Option.isSome_iff_exists.mp h
    obtain ⟨u, t, hs, hu, hread⟩ := inLine?_eq_some hform
    exact ⟨u, t, hs, hu, by rw [hread]; rfl⟩
  · rintro ⟨u, t, rfl, hu, hread⟩
    induction u with
    | nil =>
      cases t with
      | nil => exact hread
      | cons c t =>
        obtain ⟨form, hform⟩ := Option.isSome_iff_exists.mp hread
        rw [List.nil_append, inLine?, hform]
        rfl
    | cons c u ih =>
      rw [List.mem_cons, not_or] at hu
      rw [List.cons_append, inLine?]
      split
      · rfl
      · rw [if_neg (by simpa using Ne.symm hu.1)]
        exact ih hu.2

end

/-- A run is read exactly when it stands at the head of the text and no further character of its
kind follows. -/
theorem run?_eq_some {p : Char → Bool} {s w t : List Char} :
    run? p s = some (w, t) ↔
      s = w ++ t ∧ w ≠ [] ∧ (∀ c ∈ w, p c = true) ∧ ∀ c ∈ t.head?, p c = false := by
  constructor
  · intro h
    obtain ⟨hs, hchars⟩ := word?_eq_some h
    cases s with
    | nil => exact absurd h (by simp [run?, word?])
    | cons c s =>
      rw [run?, word?] at h
      split at h
      · obtain ⟨rfl, rfl⟩ := Prod.mk.inj (Option.some.inj h)
        refine ⟨hs, by simp, fun d hd => (hchars d hd).elim id id, fun d hd => ?_⟩
        have hhead := List.head?_dropWhile_not p s
        rw [Option.mem_def.mp hd] at hhead
        exact hhead
      · exact absurd h (by simp)
  · rintro ⟨rfl, hne, hw, ht⟩
    obtain ⟨c, w, rfl⟩ := List.exists_cons_of_ne_nil hne
    have hrest : ∀ d ∈ w, p d = true := fun d hd => hw d (List.mem_cons_of_mem c hd)
    rw [List.cons_append, run?, word?, if_pos (hw c List.mem_cons_self), takeWhile_append_of_head ht,
      dropWhile_append_of_head ht, List.takeWhile_eq_self_iff.mpr hrest,
      List.dropWhile_eq_nil_iff.mpr hrest, List.nil_append]

end StylesheetTrace.Text
