import Mathlib.Data.List.Basic
import Mathlib.Data.List.TakeWhile
import StylesheetTrace.Text.Scan

/-!
# What a scan finds

The scans of `Text/Scan.lean` walk over a text position by position. Three facts carry every proof
about them: what a reader does at one position, that a reader which takes at least one character
makes the bound of the scan irrelevant (`Reduces`, `scan_induction`), and that a stretch of text at
whose positions the reader reads nothing is passed over as it stands (`Silent`).
-/

namespace StylesheetTrace.Text

/-! ## Runs of characters -/

/-- A text that begins with a character outside `p` begins with none in `p`. -/
theorem head?_cons_eq_false {p : Char → Bool} {d : Char} (h : p d = false) (t : List Char) :
    ∀ c ∈ (d :: t).head?, p c = false := by
  intro c hc
  obtain rfl : d = c := Option.some.inj hc
  exact h

/-- A run of characters ends where a text begins with none of them. -/
theorem takeWhile_append_of_head {p : Char → Bool} {s : List Char}
    (h : ∀ c ∈ s.head?, p c = false) (t : List Char) :
    (t ++ s).takeWhile p = t.takeWhile p := by
  have hs : s.takeWhile p = [] := by
    cases s with
    | nil => rfl
    | cons c s => exact List.takeWhile_cons_of_neg (by simp [h c rfl])
  rw [List.takeWhile_append, hs, List.append_nil]
  split
  · rename_i hlen
    exact ((List.takeWhile_prefix p).eq_of_length hlen).symm
  · rfl

/-- What a run of characters leaves of a text stands before one that begins with none of them. -/
theorem dropWhile_append_of_head {p : Char → Bool} {s : List Char}
    (h : ∀ c ∈ s.head?, p c = false) (t : List Char) :
    (t ++ s).dropWhile p = t.dropWhile p ++ s := by
  have hs : s.dropWhile p = s := by
    cases s with
    | nil => rfl
    | cons c s => exact List.dropWhile_cons_of_neg (by simp [h c rfl])
  rw [List.dropWhile_append, hs]
  split
  · rename_i hempty
    rw [List.isEmpty_iff.mp hempty, List.nil_append]
  · rfl

/-- A run of characters in `p` holds no other. -/
theorem not_mem_takeWhile {p : Char → Bool} {d : Char} (h : p d = false) (s : List Char) :
    d ∉ s.takeWhile p := by
  intro hd
  exact absurd (h.symm.trans (List.mem_takeWhile_imp hd)) (by decide)

/-- A tail of a text that begins with a character outside `p` stays when a run of characters in `p`
is dropped. -/
theorem suffix_dropWhile {p : Char → Bool} {c : Char} (hc : p c = false) {t : List Char} :
    ∀ {s : List Char}, c :: t <:+ s → c :: t <:+ s.dropWhile p
  | [], h => h
  | d :: s, h => by
    cases hd : p d with
    | false =>
      rw [List.dropWhile_cons_of_neg (by simp [hd])]
      exact h
    | true =>
      rw [List.dropWhile_cons_of_pos hd]
      rcases List.suffix_cons_iff.mp h with heq | hs
      · rw [(List.cons.inj heq).1, hd] at hc
        exact absurd hc (by decide)
      · exact suffix_dropWhile hc hs

/-- A word that begins with a character outside `p` stays when a run of characters in `p` is
dropped. -/
theorem infix_dropWhile_iff {p : Char → Bool} {c : Char} (hc : p c = false) {w s : List Char} :
    c :: w <:+: s.dropWhile p ↔ c :: w <:+: s := by
  constructor
  · exact fun h => h.trans (List.dropWhile_suffix p).isInfix
  · rintro ⟨t, u, rfl⟩
    rw [List.append_assoc]
    have htail := suffix_dropWhile hc (List.suffix_append t (c :: (w ++ u)))
    exact (List.prefix_append (c :: w) u).isInfix.trans htail.isInfix

/-! ## Words -/

/-- A word stands at the head of a text exactly when the text is the word and what is left. -/
theorem after?_eq_some {w s rest : List Char} : after? w s = some rest ↔ s = w ++ rest := by
  unfold after?
  rw [List.isPrefixOf?_eq_some_iff_append_eq]
  exact eq_comm

/-- The text after a word is what was put behind it. -/
@[simp]
theorem after?_append (w rest : List Char) : after? w (w ++ rest) = some rest :=
  after?_eq_some.mpr rfl

/-- A word that begins with another character does not stand at the head. -/
theorem after?_cons_of_ne {c d : Char} (h : c ≠ d) (w s : List Char) :
    after? (c :: w) (d :: s) = none := by
  rw [Option.eq_none_iff_forall_not_mem]
  intro rest hrest
  have hs := after?_eq_some.mp hrest
  exact h (List.cons.inj hs).1.symm

/-- Equal first characters are read off a word and a text together. -/
@[simp]
theorem after?_cons_cons (c : Char) (w s : List Char) : after? (c :: w) (c :: s) = after? w s := by
  simp [after?, List.isPrefixOf?]

/-- The empty word leaves a text as it is. -/
@[simp]
theorem after?_nil (s : List Char) : after? [] s = some s := by
  simp [after?, List.isPrefixOf?]

/-- What is left after a word is a suffix of the text. -/
theorem suffix_of_after? {w s rest : List Char} (h : after? w s = some rest) : rest <:+ s := by
  rw [after?_eq_some.mp h]
  exact List.suffix_append w rest

/-- The text after the first occurrence of a word is what a cut leaves behind it. -/
theorem afterFirst?_eq_map_cutFrom? (w : List Char) :
    ∀ s found : List Char, afterFirst? w s = (cutFrom? w s found).map Prod.snd
  | [], found => by
    rw [afterFirst?, cutFrom?, Option.map_map]
    exact Option.map_id'.symm
  | c :: s, found => by
    rw [afterFirst?, cutFrom?]
    cases after? w (c :: s) with
    | some rest => rfl
    | none => exact afterFirst?_eq_map_cutFrom? w s (c :: found)

/-- What is left after a cut is a suffix of the text. -/
theorem suffix_of_cutFrom? {w found u rest : List Char} :
    ∀ {s}, cutFrom? w s found = some (u, rest) → rest <:+ s
  | [], h => by
    obtain ⟨tail, htail, heq⟩ := Option.map_eq_some_iff.mp h
    rw [← (Prod.mk.inj heq).2]
    exact suffix_of_after? htail
  | c :: s, h => by
    unfold cutFrom? at h
    split at h
    · rename_i tail htail
      rw [← (Prod.mk.inj (Option.some.inj h)).2]
      exact suffix_of_after? htail
    · exact (suffix_of_cutFrom? h).trans (List.suffix_cons c s)

/-- What is left after the first occurrence of a word is a suffix of the text. -/
theorem suffix_of_afterFirst? {w s rest : List Char} (h : afterFirst? w s = some rest) :
    rest <:+ s := by
  rw [afterFirst?_eq_map_cutFrom? w s []] at h
  obtain ⟨⟨u, tail⟩, hcut, rfl⟩ := Option.map_eq_some_iff.mp h
  exact suffix_of_cutFrom? hcut

/-- A word occurs in a text exactly when it is one of its stretches. -/
theorem occurs_iff {w s : List Char} : occurs w s = true ↔ w <:+: s := by
  unfold occurs
  induction s with
  | nil =>
    unfold afterFirst?
    constructor
    · intro h
      obtain ⟨rest, hrest⟩ := Option.isSome_iff_exists.mp h
      exact ⟨[], rest, (after?_eq_some.mp hrest).symm⟩
    · intro h
      rw [List.infix_nil.mp h]
      rfl
  | cons c s ih =>
    unfold afterFirst?
    rw [List.infix_cons_iff, ← ih]
    cases h : after? w (c :: s) with
    | some rest =>
      have hbegins : w <+: c :: s := ⟨rest, (after?_eq_some.mp h).symm⟩
      simp [hbegins]
    | none =>
      have hbegins : ¬ w <+: c :: s := by
        rintro ⟨rest, hrest⟩
        rw [after?_eq_some.mpr hrest.symm] at h
        exact absurd h (by simp)
      simp [hbegins]

/-- A word does not occur in a text exactly when it is none of its stretches. -/
theorem occurs_eq_false {w s : List Char} : occurs w s = false ↔ ¬ w <:+: s := by
  rw [← occurs_iff, Bool.not_eq_true]

/-- A word lies on one side of a character that does not stand in it. -/
theorem infix_of_infix_append_cons {w u v : List Char} {d : Char} (hd : d ∉ w)
    (h : w <:+: u ++ d :: v) : w <:+: u ∨ w <:+: v := by
  -- The word begins before the character, at it, or behind it; the cases are those of the place at
  -- which the two cuts of the text meet.
  obtain ⟨s, t, hst⟩ := h
  rw [List.append_assoc] at hst
  rcases List.append_eq_append_iff.mp hst with ⟨a, hu, ha⟩ | ⟨a, hs, ha⟩
  · rcases List.append_eq_append_iff.mp ha with ⟨b, hab, hb⟩ | ⟨b, hw, hb⟩
    · exact Or.inl ⟨s, b, by rw [hu, hab, List.append_assoc]⟩
    · cases b with
      | nil =>
        rw [List.append_nil] at hw
        exact Or.inl (hw ▸ hu ▸ (List.suffix_append s a).isInfix)
      | cons c b =>
        obtain rfl : d = c := (List.cons.inj hb).1
        exact absurd (hw ▸ List.mem_append_right a List.mem_cons_self) hd
  · cases a with
    | nil =>
      cases w with
      | nil => exact Or.inr (List.nil_infix)
      | cons c w =>
        obtain rfl : d = c := (List.cons.inj ha).1
        exact absurd List.mem_cons_self hd
    | cons c a =>
      have hv : v = a ++ (w ++ t) := (List.cons.inj ha).2
      exact Or.inr ⟨a, t, by rw [hv, List.append_assoc]⟩

/-- A word at the head of a text lies before a character that does not stand in it. -/
theorem append_cons_eq_append {w a s u : List Char} {d : Char} (hd : d ∉ w)
    (h : a ++ d :: s = w ++ u) : ∃ b, a = w ++ b ∧ u = b ++ d :: s := by
  rcases List.append_eq_append_iff.mp h with ⟨b, hw, hb⟩ | ⟨b, ha, hu⟩
  · cases b with
    | nil => exact ⟨[], by simpa using hw.symm, by simpa using hb.symm⟩
    | cons c b =>
      obtain rfl : d = c := (List.cons.inj hb).1
      exact absurd (hw ▸ List.mem_append_right a List.mem_cons_self) hd
  · exact ⟨b, ha, hu⟩

/-- A word is read before a character that does not stand in it as if the text ended there. -/
theorem after?_append_cons {w : List Char} {d : Char} (hd : d ∉ w) (l s : List Char) :
    after? w (l ++ d :: s) = (after? w l).map fun rest => rest ++ d :: s := by
  cases h : after? w l with
  | some rest =>
    rw [after?_eq_some.mp h, List.append_assoc, after?_append]
    rfl
  | none =>
    rw [Option.map_none, Option.eq_none_iff_forall_not_mem]
    intro u hu
    obtain ⟨b, rfl, -⟩ := append_cons_eq_append hd (after?_eq_some.mp hu)
    rw [after?_append] at h
    exact absurd h (by simp)

/-- A word whose last character stands nowhere else in it does not reach back from a text, in which
it does not occur, into its own beginning. -/
theorem after?_eq_none_of_not_infix {v u : List Char} {c d : Char} (hc : c ∉ v)
    (h : ¬ v ++ [c] <:+: d :: u) (rest : List Char) :
    after? (v ++ [c]) (d :: u ++ (v ++ [c] ++ rest)) = none := by
  rw [Option.eq_none_iff_forall_not_mem]
  intro tail htail
  have heq := after?_eq_some.mp htail
  -- Either the word reaches behind the text, by `a`, or it ends inside the text.
  rcases List.append_eq_append_iff.mp heq with ⟨a, hw, ha⟩ | ⟨a, hu, -⟩
  · rcases List.eq_nil_or_concat a with rfl | ⟨b, x, rfl⟩
    · rw [List.append_nil] at hw
      exact h (hw ▸ List.infix_refl _)
    · -- Its last character then stands in the part that reaches behind the text, inside `v`.
      rw [List.concat_eq_append] at hw ha
      rw [← List.append_assoc] at hw
      obtain ⟨hv, hx⟩ := List.append_inj' hw rfl
      obtain rfl : c = x := List.cons.inj hx |>.1
      have hlen : b.length < v.length := by
        rw [hv, List.length_append, List.length_cons]
        omega
      rw [List.append_assoc, List.append_assoc] at ha
      rcases List.append_eq_append_iff.mp ha with ⟨e, hb, -⟩ | ⟨e, hve, he⟩
      · rw [hb, List.length_append] at hlen
        omega
      · cases e with
        | nil =>
          rw [List.append_nil] at hve
          rw [hve] at hlen
          omega
        | cons y e =>
          obtain rfl : c = y := (List.cons.inj he).1
          exact hc (hve ▸ List.mem_append_right b List.mem_cons_self)
  · exact h (hu ▸ (List.prefix_append _ _).isInfix)

/-- A text in which a word does not occur is cut off before that word. -/
theorem cutFrom?_append {v : List Char} {c : Char} (hc : c ∉ v) (rest : List Char) :
    ∀ u found : List Char, ¬ v ++ [c] <:+: u →
      cutFrom? (v ++ [c]) (u ++ (v ++ [c] ++ rest)) found = some (found.reverse ++ u, rest)
  | [], found, _ => by
    have hafter := after?_append (v ++ [c]) rest
    cases hw : v ++ [c] ++ rest with
    | nil => simp at hw
    | cons d s =>
      rw [hw] at hafter
      simp [cutFrom?, hafter]
  | d :: u, found, h => by
    -- The word does not stand at the head, not even partly in the text and partly in itself.
    have hnone := after?_eq_none_of_not_infix hc h rest
    have ih := cutFrom?_append hc rest u (d :: found)
      (fun hu => h (hu.trans (List.suffix_cons d u).isInfix))
    rw [List.cons_append] at hnone ⊢
    simp only [cutFrom?, hnone, ih]
    simp

/-- A text in which a word does not occur is cut off before that word. -/
theorem cut?_append {v u : List Char} {c : Char} (hc : c ∉ v) (h : ¬ v ++ [c] <:+: u)
    (rest : List Char) : cut? (v ++ [c]) (u ++ (v ++ [c] ++ rest)) = some (u, rest) := by
  rw [cut?, cutFrom?_append hc rest u [] h]
  rfl

/-- Of a text in which a word does not occur and that word, the word is the first occurrence. -/
theorem afterFirst?_append {v u : List Char} {c : Char} (hc : c ∉ v) (h : ¬ v ++ [c] <:+: u)
    (rest : List Char) : afterFirst? (v ++ [c]) (u ++ (v ++ [c] ++ rest)) = some rest := by
  rw [afterFirst?_eq_map_cutFrom? _ _ [], cutFrom?_append hc rest u [] h]
  rfl

/-- A cut text is what stands before the first occurrence of the word, the word and what is left. -/
theorem cutFrom?_eq_some {w : List Char} (hw : w ≠ []) {s found u rest : List Char}
    (h : cutFrom? w s found = some (u, rest)) :
    ∃ v, u = found.reverse ++ v ∧ s = v ++ (w ++ rest) ∧ ¬ w <:+: v := by
  have hnil : ¬ w <:+: [] := fun hinfix => hw (List.infix_nil.mp hinfix)
  induction s generalizing found with
  | nil =>
    obtain ⟨tail, htail, heq⟩ := Option.map_eq_some_iff.mp h
    obtain ⟨rfl, rfl⟩ := Prod.mk.inj heq
    have hs := after?_eq_some.mp htail
    exact ⟨[], (List.append_nil _).symm, hs, hnil⟩
  | cons c s ih =>
    unfold cutFrom? at h
    split at h
    · rename_i tail htail
      obtain ⟨rfl, rfl⟩ := Prod.mk.inj (Option.some.inj h)
      have hs := after?_eq_some.mp htail
      exact ⟨[], (List.append_nil _).symm, hs, hnil⟩
    · rename_i hnone
      obtain ⟨v, rfl, hs, hv⟩ := ih h
      refine ⟨c :: v, by simp, by rw [hs, List.cons_append], fun hinfix => ?_⟩
      rcases List.infix_cons_iff.mp hinfix with ⟨t, ht⟩ | hinfix
      · -- The word does not stand at the head of the text.
        have hbegins : c :: s = w ++ (t ++ (w ++ rest)) := by
          rw [hs, ← List.cons_append, ← ht, List.append_assoc]
        rw [after?_eq_some.mpr hbegins] at hnone
        exact absurd hnone (by simp)
      · exact hv hinfix

/-- A cut text is what stands before the first occurrence of the word, the word and what is left. -/
theorem cut?_eq_some {w s u rest : List Char} (hw : w ≠ []) (h : cut? w s = some (u, rest)) :
    s = u ++ (w ++ rest) ∧ ¬ w <:+: u := by
  obtain ⟨v, rfl, hs, hv⟩ := cutFrom?_eq_some hw h
  exact ⟨hs, hv⟩

/-- Where a word occurs in the first part of a text, its first occurrence ends there. -/
theorem afterFirst?_append_of_infix {w u : List Char} (h : w <:+: u) (t : List Char) :
    ∃ x, afterFirst? w (u ++ t) = some (x ++ t) ∧ x <:+ u := by
  induction u with
  | nil =>
    obtain rfl := List.infix_nil.mp h
    refine ⟨[], ?_, List.suffix_refl []⟩
    cases t <;> rfl
  | cons c u ih =>
    rw [List.cons_append, afterFirst?]
    by_cases hbegins : w <+: c :: u
    · obtain ⟨x, hx⟩ := hbegins
      have hafter : after? w (c :: (u ++ t)) = some (x ++ t) :=
        after?_eq_some.mpr (by rw [← List.cons_append, ← hx, List.append_assoc])
      exact ⟨x, by rw [hafter], hx ▸ List.suffix_append w x⟩
    · -- The word then occurs behind the first character, and does not reach behind `u`.
      have hinfix : w <:+: u := (List.infix_cons_iff.mp h).resolve_left hbegins
      have hafter : after? w (c :: (u ++ t)) = none := by
        rw [Option.eq_none_iff_forall_not_mem]
        intro rest hrest
        have hword : w <+: c :: u ++ t := ⟨rest, (after?_eq_some.mp hrest).symm⟩
        refine hbegins (List.prefix_of_prefix_length_le hword (List.prefix_append _ t) ?_)
        exact Nat.le_succ_of_le hinfix.length_le
      obtain ⟨x, hfirst, hx⟩ := ih hinfix
      exact ⟨x, by rw [hafter, hfirst], hx.trans (List.suffix_cons c u)⟩

/-- What a word and the text behind it make up, and the characters of the word. -/
theorem word?_eq_some {first rest : Char → Bool} {s w t : List Char}
    (h : word? first rest s = some (w, t)) :
    s = w ++ t ∧ ∀ c ∈ w, first c = true ∨ rest c = true := by
  cases s with
  | nil => simp [word?] at h
  | cons c s =>
    rw [word?] at h
    split at h
    · rename_i hfirst
      obtain ⟨rfl, rfl⟩ := Prod.mk.inj (Option.some.inj h)
      refine ⟨by rw [List.cons_append, List.takeWhile_append_dropWhile], fun d hd => ?_⟩
      rcases List.mem_cons.mp hd with rfl | hd
      · exact Or.inl hfirst
      · exact Or.inr (List.mem_takeWhile_imp hd)
    · exact absurd h (by simp)

/-- A tail of a text that begins with a character begins behind a stretch in which that character
does not stand. -/
theorem suffix_of_suffix_append {d : Char} {t u rest : List Char} (ht : d ∉ t)
    (h : d :: u <:+ t ++ rest) : d :: u <:+ rest := by
  rcases List.suffix_or_suffix_of_suffix h (List.suffix_append t rest) with hrest | ⟨v, hv⟩
  · exact hrest
  · cases v with
    | nil => exact hv ▸ List.suffix_refl _
    | cons c v =>
      obtain rfl : c = d := (List.cons.inj hv).1
      rw [← hv] at h
      exact absurd ((List.suffix_append_self_iff.mp h).subset List.mem_cons_self) ht

/-- What stands behind a character in a tail of a text stands behind its first occurrence there. -/
theorem suffix_of_append_cons_suffix {d : Char} {x y z w : List Char} (hx : d ∉ x)
    (h : y ++ d :: w <:+ x ++ d :: z) : w <:+ z := by
  have hfirst := suffix_of_suffix_append hx ((List.suffix_append y (d :: w)).trans h)
  rcases List.suffix_cons_iff.mp hfirst with heq | hz
  · exact (List.cons.inj heq).2 ▸ List.suffix_refl _
  · exact (List.suffix_cons d w).trans hz

/-! ## The last occurrence of a word -/

/-- A word occurs in a text nowhere, or the last time where a tail begins that is one of every other
tail that begins with the word. -/
theorem lastTail?_cases {w : List Char} (hw : w ≠ []) (s : List Char) :
    (lastTail? w s = none ∧ ∀ v, v <:+ s → ¬ w <+: v) ∨
      ∃ tail, lastTail? w s = some tail ∧ tail <:+ s ∧ w <+: tail ∧
        ∀ v, v <:+ s → w <+: v → tail <:+ v := by
  have hfrom : ∀ found, (lastTailFrom? w s found = found ∧ ∀ v, v <:+ s → ¬ w <+: v) ∨
      ∃ tail, lastTailFrom? w s found = some tail ∧ tail <:+ s ∧ w <+: tail ∧
        ∀ v, v <:+ s → w <+: v → tail <:+ v := by
    induction s with
    | nil =>
      refine fun found => Or.inl ⟨rfl, fun v hv hword => hw ?_⟩
      rwa [List.suffix_nil.mp hv, List.prefix_nil] at hword
    | cons c s ih =>
      intro found
      rw [lastTailFrom?]
      rcases ih (if (after? w (c :: s)).isSome then some (c :: s) else found) with
        ⟨hfound, hnone⟩ | ⟨tail, hfound, htail, hbegins, hlast⟩
      -- The word does not occur behind the first character, so it begins there or nowhere.
      · rw [hfound]
        by_cases hword : w <+: c :: s
        · obtain ⟨rest, hrest⟩ := hword
          rw [after?_eq_some.mpr hrest.symm, Option.isSome_some, if_pos rfl]
          refine Or.inr ⟨c :: s, rfl, List.suffix_refl _, ⟨rest, hrest⟩, fun v hv hword => ?_⟩
          rcases List.suffix_cons_iff.mp hv with rfl | hv
          · exact List.suffix_refl _
          · exact absurd hword (hnone v hv)
        · have hafter : after? w (c :: s) = none := by
            rw [Option.eq_none_iff_forall_not_mem]
            exact fun rest hrest => hword ⟨rest, (after?_eq_some.mp hrest).symm⟩
          rw [hafter, Option.isSome_none, if_neg Bool.false_ne_true]
          refine Or.inl ⟨rfl, fun v hv => ?_⟩
          rcases List.suffix_cons_iff.mp hv with rfl | hv
          · exact hword
          · exact hnone v hv
      · refine Or.inr ⟨tail, hfound, htail.trans (List.suffix_cons c s), hbegins, ?_⟩
        intro v hv hword
        rcases List.suffix_cons_iff.mp hv with rfl | hv
        · exact htail.trans (List.suffix_cons c s)
        · exact hlast v hv hword
  exact hfrom none

/-! ## Readers -/

/-- The reader takes at least one character. -/
def Reduces {α : Type} (r : Reader α) : Prop :=
  ∀ s a rest, r s = some (a, rest) → rest.length < s.length

/-- The reader reads nothing at any place inside a stretch of text, which `s` follows. -/
def Silent {α : Type} (r : Reader α) : List Char → List Char → Prop
  | [], _ => True
  | c :: t, s => r (c :: (t ++ s)) = none ∧ Silent r t s

section

variable {α : Type} {r : Reader α}

/-- What follows the text of a reader that goes on behind a first character is shorter. -/
theorem reduces_of_suffix (h : ∀ s a rest, r s = some (a, rest) → ∃ c t, s = c :: t ∧ rest <:+ t) :
    Reduces r := by
  intro s a rest hr
  obtain ⟨c, t, rfl, hrest⟩ := h s a rest hr
  have hlen := hrest.length_le
  rw [List.length_cons]
  omega

/-- A reader that takes a character reads nothing in the empty text. -/
theorem Reduces.nil_eq_none (hr : Reduces r) : r [] = none := by
  rw [Option.eq_none_iff_forall_not_mem]
  rintro ⟨a, rest⟩ h
  exact absurd (hr [] a rest h) (Nat.not_lt_zero _)

/-- Induction along a scan: a character at which nothing is read is passed over, and a form is
passed over as a whole. -/
@[elab_as_elim]
theorem scan_induction {motive : List Char → Prop} (hr : Reduces r) (s : List Char)
    (nil : motive [])
    (plain : ∀ c s, r (c :: s) = none → motive s → motive (c :: s))
    (form : ∀ s a rest, r s = some (a, rest) → motive rest → motive s) : motive s := by
  induction hn : s.length using Nat.strongRecOn generalizing s with
  | _ n ih =>
    cases h : r s with
    | some found => exact form s _ _ h (ih _ (hn ▸ hr s _ _ h) _ rfl)
    | none =>
      cases s with
      | nil => exact nil
      | cons c s => exact plain c s h (ih _ (hn ▸ Nat.lt_succ_self _) s rfl)

/-- A reader is silent in two stretches one behind the other when it is silent in each. -/
theorem silent_append {t u s : List Char} :
    Silent r (t ++ u) s ↔ Silent r t (u ++ s) ∧ Silent r u s := by
  induction t with
  | nil => simp [Silent]
  | cons c t ih => simp [Silent, ih, and_assoc]

/-- A reader that is silent in a text is silent in its tails. -/
theorem Silent.of_suffix {t u : List Char} (h : Silent r t []) (hu : u <:+ t) : Silent r u [] := by
  obtain ⟨v, rfl⟩ := hu
  exact (silent_append.mp h).2

/-- What the reader reads it reads before any other text too. -/
def Extends {α : Type} (r : Reader α) : Prop :=
  ∀ s t a rest, r s = some (a, rest) → r (s ++ t) = some (a, rest ++ t)

/-- A reader that is silent in a text is silent in its beginnings, if it does not read more in less
text. -/
theorem Silent.of_prefix (hr : Extends r) {t u : List Char} (h : Silent r t []) (hu : u <+: t) :
    Silent r u [] := by
  obtain ⟨v, rfl⟩ := hu
  induction u with
  | nil => trivial
  | cons c u ih =>
    refine ⟨?_, ih h.2⟩
    rw [Option.eq_none_iff_forall_not_mem]
    rintro ⟨a, rest⟩ hread
    have hmore := hr _ v _ _ hread
    rw [List.append_nil] at hmore
    have hnone : r (c :: u ++ v) = none := by simpa using h.1
    exact absurd (hmore.symm.trans hnone) (by simp)

/-- A reader is silent in a text with no character that begins one of its forms. -/
theorem silent_of_forall_mem {t : List Char} (h : ∀ c ∈ t, ∀ s, r (c :: s) = none)
    (s : List Char) : Silent r t s := by
  induction t with
  | nil => trivial
  | cons c t ih =>
    exact ⟨h c List.mem_cons_self _, ih fun d hd => h d (List.mem_cons_of_mem c hd)⟩

/-- A reader whose forms all begin with one character is silent where that does not occur. -/
theorem silent_of_not_mem {d : Char} (hd : ∀ c s, c ≠ d → r (c :: s) = none) {t : List Char}
    (ht : d ∉ t) (s : List Char) : Silent r t s :=
  silent_of_forall_mem (fun c hc u => hd c u fun h => ht (h ▸ hc)) s

/-- A reader that reads nothing at any tail of a text is silent in it. -/
theorem silent_of_forall_suffix {t : List Char} (h : ∀ u, u <:+ t → r u = none) :
    Silent r t [] := by
  induction t with
  | nil => trivial
  | cons c t ih =>
    refine ⟨?_, ih fun u hu => h u (hu.trans (List.suffix_cons c t))⟩
    rw [List.append_nil]
    exact h _ (List.suffix_refl _)

/-- A reader whose forms all begin with a word is silent where the word does not occur. -/
theorem silent_of_not_isInfix {w : List Char} (hw : ∀ s, ¬ w <+: s → r s = none) {t : List Char}
    (ht : ¬ w <:+: t) : Silent r t [] := by
  refine silent_of_forall_suffix fun u hu => hw u fun hbegins => ht ?_
  exact hbegins.isInfix.trans hu.isInfix

/-- A word that a reader reads wherever it stands does not occur where the reader is silent. -/
theorem not_infix_of_silent {c : Char} {w t : List Char} (hw : ∀ s, r (c :: (w ++ s)) ≠ none)
    (h : Silent r t []) : ¬ c :: w <:+: t := by
  rintro ⟨a, b, rfl⟩
  rw [List.append_assoc, silent_append] at h
  exact hw _ (by simpa using h.2.1)

/-! ## Pieces -/

/-- The pieces found so far stand before those still to be found. -/
theorem piecesFrom_eq_append (n : Nat) (s : List Char) (found : List (Piece α)) :
    piecesFrom r n s found = found.reverse ++ piecesFrom r n s [] := by
  induction n generalizing s found with
  | zero => simp [piecesFrom]
  | succ n ih =>
    cases s with
    | nil => simp [piecesFrom]
    | cons c s =>
      simp only [piecesFrom]
      split
      · rename_i a rest _
        rw [ih rest (.form a :: found), ih rest [.form a]]
        simp
      · rw [ih s (.plain c :: found), ih s [.plain c]]
        simp

/-- For a reader that takes characters the bound of the scan does not matter. -/
theorem piecesFrom_eq_pieces (hr : Reduces r) (n : Nat) (s : List Char) (h : s.length ≤ n) :
    piecesFrom r n s [] = pieces r s := by
  -- The induction is on one bound, for every other bound that suffices too.
  unfold pieces
  generalize hm : s.length = m
  have hs : s.length ≤ m := Nat.le_of_eq hm
  clear hm
  induction n generalizing s m with
  | zero =>
    obtain rfl := List.length_eq_zero_iff.mp (Nat.le_zero.mp h)
    cases m <;> rfl
  | succ n ih =>
    cases s with
    | nil => cases m <;> rfl
    | cons c s =>
      cases m with
      | zero => simp at hs
      | succ m =>
        rw [List.length_cons] at h hs
        simp only [piecesFrom]
        split
        -- A form leaves a shorter text, for which both bounds still suffice.
        · rename_i a rest hform
          have hlen := hr _ _ _ hform
          rw [List.length_cons] at hlen
          rw [piecesFrom_eq_append n, piecesFrom_eq_append m,
            ih rest (by omega) m (by omega)]
        · rw [piecesFrom_eq_append n, piecesFrom_eq_append m, ih s (by omega) m (by omega)]

/-- The empty text has no pieces. -/
@[simp]
theorem pieces_nil : pieces r [] = [] := rfl

/-- A character at which nothing is read is a piece. -/
theorem pieces_cons_of_none {c : Char} {s : List Char} (h : r (c :: s) = none) :
    pieces r (c :: s) = .plain c :: pieces r s := by
  unfold pieces
  rw [List.length_cons, piecesFrom, h]
  simp only
  rw [piecesFrom_eq_append]
  rfl

/-- A form that is read at the head of a text is a piece. -/
theorem pieces_of_some (hr : Reduces r) {s : List Char} {a : α} {rest : List Char}
    (h : r s = some (a, rest)) : pieces r s = .form a :: pieces r rest := by
  cases s with
  | nil => rw [hr.nil_eq_none] at h; simp at h
  | cons c s =>
    have hlen := hr _ _ _ h
    rw [List.length_cons] at hlen
    unfold pieces
    rw [List.length_cons, piecesFrom, h]
    simp only
    rw [piecesFrom_eq_append, piecesFrom_eq_pieces hr _ _ (by omega)]
    rfl

/-- A stretch in which nothing is read stands among the pieces character by character. -/
theorem pieces_append_of_silent {t s : List Char} (h : Silent r t s) :
    pieces r (t ++ s) = t.map .plain ++ pieces r s := by
  induction t with
  | nil => rfl
  | cons c t ih =>
    rw [List.cons_append, pieces_cons_of_none h.1, ih h.2]
    rfl

/-- Where a form is read, it is the first of the forms of a text. -/
theorem collect_of_some (hr : Reduces r) {s : List Char} {a : α} {rest : List Char}
    (h : r s = some (a, rest)) : collect r s = a :: collect r rest := by
  unfold collect
  rw [pieces_of_some hr h]
  rfl

/-- A character at which nothing is read begins no form. -/
theorem collect_cons_of_none {c : Char} {s : List Char} (h : r (c :: s) = none) :
    collect r (c :: s) = collect r s := by
  unfold collect
  rw [pieces_cons_of_none h]
  rfl

/-- A stretch in which nothing is read holds no form. -/
theorem collect_append_of_silent {t s : List Char} (h : Silent r t s) :
    collect r (t ++ s) = collect r s := by
  unfold collect
  rw [pieces_append_of_silent h, List.filterMap_append, List.filterMap_map]
  simp [Function.comp_def, Piece.form?]

/-- A text in which nothing is read holds no form. -/
theorem collect_of_silent {s : List Char} (h : Silent r s []) : collect r s = [] := by
  have hc := collect_append_of_silent h
  rw [List.append_nil] at hc
  exact hc

/-- A form that is collected is read somewhere. -/
theorem exists_of_mem_collect (hr : Reduces r) {s : List Char} {a : α} (h : a ∈ collect r s) :
    ∃ u rest, r u = some (a, rest) := by
  induction s using scan_induction hr with
  | nil => exact absurd h List.not_mem_nil
  | plain c s hnone ih =>
    rw [collect_cons_of_none hnone] at h
    exact ih h
  | form s b rest hread ih =>
    rw [collect_of_some hr hread] at h
    rcases List.mem_cons.mp h with rfl | h
    · exact ⟨s, rest, hread⟩
    · exact ih h

/-- Where the forms of a reader begin with a character that stands nowhere else in them, none of the
places at which one is read is passed over. -/
theorem mem_collect_iff {d : Char}
    (hd : ∀ s a rest, r s = some (a, rest) → ∃ t, s = d :: (t ++ rest) ∧ d ∉ t)
    {s : List Char} {a : α} :
    a ∈ collect r s ↔ ∃ u rest, u <:+ s ∧ r u = some (a, rest) := by
  have hr : Reduces r := reduces_of_suffix fun s a rest h => by
    obtain ⟨t, hs, -⟩ := hd s a rest h
    exact ⟨d, t ++ rest, hs, List.suffix_append t rest⟩
  induction s using scan_induction hr with
  | nil =>
    refine iff_of_false List.not_mem_nil ?_
    rintro ⟨u, rest, hu, hform⟩
    rw [List.suffix_nil.mp hu, hr.nil_eq_none] at hform
    exact absurd hform (by simp)
  | plain c s h ih =>
    have ih : a ∈ collect r s ↔ _ := ih
    rw [collect_cons_of_none h, ih]
    refine exists_congr fun u => exists_congr fun rest => and_congr_left fun hform => ?_
    rw [List.suffix_cons_iff]
    refine (or_iff_right ?_).symm
    rintro rfl
    exact absurd (h.symm.trans hform) (by simp)
  | form s b rest h ih =>
    obtain ⟨t, hs, ht⟩ := hd s b rest h
    have ih : a ∈ collect r rest ↔ _ := ih
    rw [collect_of_some hr h, List.mem_cons, ih]
    constructor
    · rintro (rfl | ⟨u, rest', hu, hform⟩)
      · exact ⟨s, rest, List.suffix_refl s, h⟩
      · refine ⟨u, rest', hu.trans ?_, hform⟩
        rw [hs]
        exact (List.suffix_append t rest).trans (List.suffix_cons d _)
    · rintro ⟨u, rest', hu, hform⟩
      rw [hs] at hu
      rcases List.suffix_cons_iff.mp hu with rfl | hu
      · rw [← hs, h] at hform
        exact Or.inl (Prod.mk.inj (Option.some.inj hform)).1.symm
      · obtain ⟨v, rfl, -⟩ := hd u a rest' hform
        exact Or.inr ⟨_, rest', suffix_of_suffix_append ht hu, hform⟩

/-- A form is left out of the text around it. -/
theorem erase_of_some (hr : Reduces r) {s : List Char} {a : α} {rest : List Char}
    (h : r s = some (a, rest)) : erase r s = erase r rest := by
  unfold erase
  rw [pieces_of_some hr h]
  rfl

/-- A stretch in which nothing is read is kept. -/
theorem erase_append_of_silent {t s : List Char} (h : Silent r t s) :
    erase r (t ++ s) = t ++ erase r s := by
  unfold erase
  rw [pieces_append_of_silent h, List.filterMap_append, List.filterMap_map]
  congr 1
  exact List.filterMap_some

/-- A text in which nothing is read is kept as it stands. -/
theorem erase_of_silent {s : List Char} (h : Silent r s []) : erase r s = s := by
  have he := erase_append_of_silent h
  rw [List.append_nil] at he
  exact he.trans (List.append_nil s)

/-- Texts joined by a character at which nothing is read lose their forms one by one, if each does
so before that character and at the end. -/
theorem erase_intercalate {β : Type} {d : Char} (hd : ∀ s, r (d :: s) = none)
    {t u : β → List Char} : ∀ {xs : List β}, (∀ x ∈ xs, ∀ s : List Char, (∀ c ∈ s.head?, c = d) →
      erase r (t x ++ s) = u x ++ erase r s) →
    erase r ([d].intercalate (xs.map t)) = [d].intercalate (xs.map u)
  | [], _ => rfl
  | [x], h => by
    have hx := h x List.mem_cons_self [] (by simp)
    rw [List.append_nil] at hx
    rw [List.map_singleton, List.map_singleton, List.intercalate_singleton,
      List.intercalate_singleton, hx]
    exact List.append_nil (u x)
  | x :: y :: xs, h => by
    have hsep : ∀ s : List Char, erase r (d :: s) = d :: erase r s := fun s =>
      erase_append_of_silent (t := [d]) ⟨hd s, trivial⟩
    have ih : erase r ([d].intercalate (t y :: xs.map t)) = [d].intercalate (u y :: xs.map u) :=
      erase_intercalate hd fun z hz => h z (List.mem_cons_of_mem x hz)
    rw [List.map_cons, List.map_cons, List.map_cons, List.map_cons, List.intercalate_cons_cons,
      List.intercalate_cons_cons, List.append_assoc, List.append_assoc, List.singleton_append,
      List.singleton_append, h x List.mem_cons_self _ (by simp), hsep, ih]

/-! ## The leftmost form -/

/-- A form at the head of a text is the leftmost one. -/
theorem leftmostFrom?_of_some {s : List Char} {form : α × List Char} (h : r s = some form)
    (found : List Char) : leftmostFrom? r s found = some (found.reverse, form) := by
  cases s with
  | nil => simp [leftmostFrom?, h]
  | cons c s => simp [leftmostFrom?, h]

/-- A stretch in which nothing is read stands before the leftmost form. -/
theorem leftmostFrom?_append_of_silent {t s : List Char} (h : Silent r t s) (found : List Char) :
    leftmostFrom? r (t ++ s) found = leftmostFrom? r s (t.reverse ++ found) := by
  induction t generalizing found with
  | nil => rfl
  | cons c t ih =>
    rw [List.cons_append, leftmostFrom?, h.1]
    simp only
    rw [ih h.2]
    simp

/-- What was passed over before stands in front of the leftmost form. -/
theorem leftmostFrom?_eq_map (s found : List Char) :
    leftmostFrom? r s found = (leftmost? r s).map fun p => (found.reverse ++ p.1, p.2) := by
  have hfrom : ∀ found', leftmostFrom? r s (found' ++ found) =
      (leftmostFrom? r s found').map fun p => (found.reverse ++ p.1, p.2) := by
    induction s with
    | nil => intro found'; cases h : r [] <;> simp [leftmostFrom?, h]
    | cons c s ih =>
      intro found'
      rw [leftmostFrom?, leftmostFrom?]
      cases h : r (c :: s) with
      | some form => simp
      | none => exact ih (c :: found')
  exact hfrom []

/-- A stretch in which nothing is read stands in front of the leftmost form. -/
theorem leftmost?_append {t s : List Char} (h : Silent r t s) :
    leftmost? r (t ++ s) = (leftmost? r s).map fun p => (t ++ p.1, p.2) := by
  rw [leftmost?, leftmostFrom?_append_of_silent h, leftmostFrom?_eq_map, List.append_nil,
    List.reverse_reverse]

/-- The form behind a stretch in which nothing is read is the leftmost one. -/
theorem leftmost?_append_of_silent {t s : List Char} {form : α × List Char} (h : Silent r t s)
    (hs : r s = some form) : leftmost? r (t ++ s) = some (t, form) := by
  rw [leftmost?_append h, leftmost?, leftmostFrom?_of_some hs]
  simp

/-- The text behind the leftmost form is a suffix, if it is one behind every form. -/
theorem suffix_of_leftmost? (hr : ∀ s a rest, r s = some (a, rest) → rest <:+ s)
    {s t rest : List Char} {a : α} (h : leftmost? r s = some (t, a, rest)) : rest <:+ s := by
  unfold leftmost? at h
  generalize ([] : List Char) = found at h
  induction s generalizing found with
  | nil =>
    obtain ⟨form, hform, heq⟩ := Option.map_eq_some_iff.mp h
    obtain ⟨-, rfl⟩ := Prod.mk.inj heq
    exact hr _ _ _ hform
  | cons c s ih =>
    unfold leftmostFrom? at h
    split at h
    · rename_i form hform
      obtain ⟨-, rfl⟩ := Prod.mk.inj (Option.some.inj h)
      exact hr _ _ _ hform
    · exact (ih _ h).trans (List.suffix_cons c s)

/-- The leftmost form is read at the head of a tail of the text, which holds every tail at which one
is read. -/
theorem exists_longest_of_leftmost? {s t rest : List Char} {a : α}
    (h : leftmost? r s = some (t, a, rest)) :
    ∃ u, u <:+ s ∧ r u = some (a, rest) ∧ ∀ v, v <:+ s → (r v).isSome = true → v <:+ u := by
  unfold leftmost? at h
  generalize ([] : List Char) = found at h
  induction s generalizing found with
  | nil =>
    obtain ⟨form, hform, heq⟩ := Option.map_eq_some_iff.mp h
    obtain ⟨-, rfl⟩ := Prod.mk.inj heq
    exact ⟨[], List.suffix_refl _, hform, fun v hv _ => hv⟩
  | cons c s ih =>
    unfold leftmostFrom? at h
    split at h
    · rename_i form hform
      obtain ⟨-, rfl⟩ := Prod.mk.inj (Option.some.inj h)
      exact ⟨c :: s, List.suffix_refl _, hform, fun v hv _ => hv⟩
    · rename_i hnone
      obtain ⟨u, hu, hform, hlongest⟩ := ih _ h
      refine ⟨u, hu.trans (List.suffix_cons c s), hform, fun v hv hread => ?_⟩
      rcases List.suffix_cons_iff.mp hv with rfl | hv
      · exact absurd hread (by simp [hnone])
      · exact hlongest v hv hread

/-- The leftmost form is read at the head of a tail of the text. -/
theorem exists_of_leftmost? {s t rest : List Char} {a : α} (h : leftmost? r s = some (t, a, rest)) :
    ∃ u, u <:+ s ∧ r u = some (a, rest) := by
  obtain ⟨u, hu, hform, -⟩ := exists_longest_of_leftmost? h
  exact ⟨u, hu, hform⟩

/-- A text in which nothing is read has no leftmost form. -/
theorem leftmost?_of_silent {s : List Char} (h : Silent r s []) (hnil : r [] = none) :
    leftmost? r s = none := by
  unfold leftmost?
  have hs := leftmostFrom?_append_of_silent h []
  rw [List.append_nil] at hs
  rw [hs]
  simp [leftmostFrom?, hnil]

/-- A stretch in which nothing is read does not change which form is the first one. -/
theorem firstForm?_append {t s : List Char} (h : Silent r t s) :
    firstForm? r (t ++ s) = firstForm? r s := by
  rw [firstForm?, leftmost?_append h, Option.map_map]
  rfl

/-- The form behind a stretch in which nothing is read is the first one. -/
theorem firstForm?_append_of_silent {t s : List Char} {a : α} {rest : List Char}
    (h : Silent r t s) (hs : r s = some (a, rest)) : firstForm? r (t ++ s) = some a := by
  unfold firstForm?
  rw [leftmost?_append_of_silent h hs]
  rfl

/-- A text has a form exactly when one stands at the head of one of its tails. -/
theorem hasForm_iff {s : List Char} :
    hasForm r s = true ↔ ∃ u, u <:+ s ∧ (r u).isSome = true := by
  have hfrom : ∀ found, (leftmostFrom? r s found).isSome = true ↔
      ∃ u, u <:+ s ∧ (r u).isSome = true := by
    induction s with
    | nil => intro found; simp [leftmostFrom?, List.suffix_nil]
    | cons c s ih =>
      intro found
      unfold leftmostFrom?
      cases h : r (c :: s) with
      | some form => exact iff_of_true rfl ⟨c :: s, List.suffix_refl _, by rw [h]; rfl⟩
      | none =>
        -- The form is not the text itself, so it stands in its tail.
        rw [ih]
        refine exists_congr fun u => and_congr_left fun hu => ?_
        rw [List.suffix_cons_iff]
        refine (or_iff_right ?_).symm
        rintro rfl
        rw [h] at hu
        exact absurd hu (by simp)
  exact hfrom []

/-- The first form of a text is read at its head, or else it is the first one behind its first
character. -/
theorem firstForm?_cons (r : Reader α) (c : Char) (s : List Char) :
    firstForm? r (c :: s) = ((r (c :: s)).map Prod.fst).or (firstForm? r s) := by
  cases h : r (c :: s) with
  | some form =>
    rw [firstForm?, leftmost?, leftmostFrom?_of_some h]
    rfl
  | none => exact firstForm?_append (t := [c]) ⟨h, trivial⟩

/-- The first form is read at the head of the longest tail at which one is read. -/
theorem firstForm?_eq_some_iff (hnil : r [] = none) {s : List Char} {a : α} :
    firstForm? r s = some a ↔ ∃ t, t <:+ s ∧ (r t).map Prod.fst = some a ∧
      ∀ u, u <:+ s → (r u).isSome = true → u <:+ t := by
  induction s with
  | nil =>
    refine iff_of_false (by simp [firstForm?, leftmost?, leftmostFrom?, hnil]) ?_
    rintro ⟨t, ht, hread, -⟩
    rw [List.suffix_nil.mp ht, hnil] at hread
    exact absurd hread (by simp)
  | cons c s ih =>
    rw [firstForm?_cons]
    cases h : r (c :: s) with
    | some form =>
      rw [Option.map_some, Option.some_or]
      constructor
      · intro ha
        exact ⟨c :: s, List.suffix_refl _, by rw [h]; exact ha, fun u hu _ => hu⟩
      · rintro ⟨t, ht, hread, hfirst⟩
        have hwhole : c :: s <:+ t := hfirst _ (List.suffix_refl _) (by rw [h]; rfl)
        rw [ht.eq_of_length_le hwhole.length_le, h] at hread
        exact hread
    | none =>
      rw [Option.map_none, Option.none_or, ih]
      -- Nothing is read at the head of the text, so that the tails behind it are all there are.
      have htail : ∀ t, (r t).isSome = true → t <:+ c :: s → t <:+ s := by
        intro t hread ht
        rcases List.suffix_cons_iff.mp ht with rfl | ht
        · exact absurd hread (by simp [h])
        · exact ht
      constructor
      · rintro ⟨t, ht, hread, hfirst⟩
        exact ⟨t, ht.trans (List.suffix_cons c s), hread, fun u hu hsome =>
          hfirst u (htail u hsome hu) hsome⟩
      · rintro ⟨t, ht, hread, hfirst⟩
        have hsome : (r t).isSome = true := by
          rw [← Option.isSome_map, hread]
          rfl
        exact ⟨t, htail t hsome ht, hread, fun u hu =>
          hfirst u (hu.trans (List.suffix_cons c s))⟩

/-- A text has no first form exactly when none is read at any of its tails. -/
theorem firstForm?_eq_none_iff {s : List Char} :
    firstForm? r s = none ↔ ∀ t, t <:+ s → r t = none := by
  have hform : (firstForm? r s).isSome = hasForm r s := Option.isSome_map
  rw [← Option.not_isSome_iff_eq_none, hform, hasForm_iff]
  simp

/-- A text has a form exactly when one is collected from it. -/
theorem hasForm_eq_false_iff (hr : Reduces r) {s : List Char} :
    hasForm r s = false ↔ collect r s = [] := by
  -- Whether a form is found does not depend on what was passed over before.
  have hfrom : ∀ found, (leftmostFrom? r s found).isSome = false ↔ collect r s = [] := by
    induction s with
    | nil => intro found; simp [leftmostFrom?, hr.nil_eq_none, collect]
    | cons c s ih =>
      intro found
      cases h : r (c :: s) with
      | some form =>
        obtain ⟨a, rest⟩ := form
        rw [leftmostFrom?_of_some h, collect_of_some hr h]
        simp
      | none =>
        rw [leftmostFrom?, h, collect_cons_of_none h]
        exact ih _
  exact hfrom []

/-- A text has a form exactly when the number of its forms is not zero. -/
theorem hasForm_eq_decide (hr : Reduces r) (s : List Char) :
    hasForm r s = decide (0 < count r s) := by
  rw [Bool.eq_iff_iff, ← not_iff_not, Bool.not_eq_true, hasForm_eq_false_iff hr, count]
  simp

end

end StylesheetTrace.Text
