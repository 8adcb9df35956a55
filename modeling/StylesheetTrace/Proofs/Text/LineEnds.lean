import StylesheetTrace.Proofs.Text.Lines

/-!
# Lines with any end

A log may end its lines with any vertical separator, and a carriage return before a line feed is one
end with it. Behind a line end that is whole the lines go on as those of the text that is left
(`anyLines_append_end`). Every line is a stretch of the text without line ends
(`infix_of_mem_anyLines`).
-/

namespace StylesheetTrace.Text

/-! ## Parts -/

section

variable {p : Char → Bool}

/-- The parts on both sides of a separator. -/
theorem splitWhere_append_separator {d : Char} (hd : p d = true) (s t : List Char) :
    splitWhere p (s ++ d :: t) = splitWhere p s ++ splitWhere p t := by
  induction s using part_induction (p := p) with
  | last s hs => rw [splitWhere_append_cons hs hd, splitWhere_of_forall_not hs, List.singleton_append]
  | part u e s hu he ih =>
    rw [List.append_assoc, List.cons_append, splitWhere_append_cons hu he,
      splitWhere_append_cons hu he, ih, List.cons_append]

/-- Every part of a text is a stretch of it without separators. -/
theorem infix_of_mem_splitWhere {s l : List Char} (h : l ∈ splitWhere p s) :
    l <:+: s ∧ ∀ c ∈ l, p c = false := by
  induction s using part_induction (p := p) with
  | last s hs =>
    rw [splitWhere_of_forall_not hs, List.mem_singleton] at h
    subst h
    exact ⟨List.infix_refl l, hs⟩
  | part t d u ht hd ih =>
    rw [splitWhere_append_cons ht hd, List.mem_cons] at h
    rcases h with rfl | h
    · exact ⟨(List.prefix_append l _).isInfix, ht⟩
    · obtain ⟨hstretch, hl⟩ := ih h
      have hsuffix : u <:+ t ++ d :: u := (List.suffix_cons d u).trans (List.suffix_append t _)
      exact ⟨hstretch.trans hsuffix.isInfix, hl⟩

/-- A text is cut behind its last separator. -/
theorem exists_last_part (p : Char → Bool) (s : List Char) :
    ∃ a b, s = a ++ b ∧ (a = [] ∨ ∃ t d, a = t ++ [d] ∧ p d = true) ∧ ∀ c ∈ b, p c = false := by
  induction s using part_induction (p := p) with
  | last s hs => exact ⟨[], s, rfl, Or.inl rfl, hs⟩
  | part t d u ht hd ih =>
    obtain ⟨a, b, rfl, ha, hb⟩ := ih
    refine ⟨t ++ d :: a, b, by simp, Or.inr ?_, hb⟩
    rcases ha with rfl | ⟨v, e, rfl, he⟩
    · exact ⟨t, d, rfl, hd⟩
    · exact ⟨t ++ d :: v, e, by simp, he⟩

end

/-! ## Carriage returns -/

/-- A carriage return is left out exactly where a line feed follows. -/
theorem joinReturns_cons (c : Char) (s : List Char) :
    joinReturns (c :: s) =
      if c = '\r' ∧ s.head? = some '\n' then joinReturns s else c :: joinReturns s := by
  -- The text read so far begins with a feed that has no return yet if it begins with a feed at all.
  have hfeed : (s.foldr
      (fun c acc => if c == '\r' && acc.2 then (acc.1, false) else (c :: acc.1, c == '\n'))
      (([], false) : List Char × Bool)).2 = (s.head? == some '\n') := by
    cases s with
    | nil => rfl
    | cons d s =>
      rw [List.foldr_cons]
      split
      · rename_i hd
        obtain rfl : d = '\r' := beq_iff_eq.mp (Bool.and_eq_true_iff.mp hd).1
        rfl
      · simp
  have hpair : (c == '\r' && (s.head? == some '\n')) =
      decide (c = '\r' ∧ s.head? = some '\n') := by
    rw [Bool.eq_iff_iff]
    simp
  rw [joinReturns, List.foldr_cons, hfeed, hpair]
  by_cases h : c = '\r' ∧ s.head? = some '\n'
  · rw [if_pos (decide_eq_true h), if_pos h]
    rfl
  · rw [if_neg (by simp [h]), if_neg h]
    rfl

/-- Behind a line end that is no return before a feed the returns are joined as in the text that is
left. -/
theorem joinReturns_append_end {d : Char} {t : List Char} (hd : d = '\r' → t.head? ≠ some '\n')
    (s : List Char) : joinReturns (s ++ d :: t) = joinReturns (s ++ [d]) ++ joinReturns t := by
  induction s with
  | nil =>
    have hpair : ¬ (d = '\r' ∧ t.head? = some '\n') := fun h => hd h.1 h.2
    rw [List.nil_append, List.nil_append, joinReturns_cons, if_neg hpair, joinReturns_cons,
      if_neg (by simp)]
    rfl
  | cons c s ih =>
    have hhead : (s ++ d :: t).head? = (s ++ [d]).head? := by
      cases s <;> rfl
    rw [List.cons_append, List.cons_append, joinReturns_cons, joinReturns_cons, hhead, ih]
    split <;> rfl

/-- A last character stays when returns are joined. -/
theorem exists_joinReturns_concat (s : List Char) (d : Char) :
    ∃ t, joinReturns (s ++ [d]) = t ++ [d] := by
  induction s with
  | nil =>
    refine ⟨[], ?_⟩
    rw [List.nil_append, joinReturns_cons, if_neg (by simp)]
    rfl
  | cons c s ih =>
    obtain ⟨t, ht⟩ := ih
    rw [List.cons_append, joinReturns_cons, ht]
    split
    · exact ⟨t, rfl⟩
    · exact ⟨c :: t, rfl⟩

/-- A stretch without line feeds of the joined text is one of the text. -/
theorem infix_of_infix_joinReturns {s l : List Char} (hl : '\n' ∉ l) (h : l <:+: joinReturns s) :
    l <:+: s := by
  have hfree : ∀ {s l : List Char}, '\n' ∉ l → l <+: joinReturns s → l <+: s := by
    intro s
    induction s with
    | nil => exact fun _ hl => hl
    | cons c s ih =>
      intro l hfeed hl
      rw [joinReturns_cons] at hl
      split at hl
      · -- Where a return is left out, a feed follows, which no stretch may begin with.
        rename_i hpair
        cases l with
        | nil => exact List.nil_prefix
        | cons e l =>
          obtain ⟨t, rfl⟩ : ∃ t, s = '\n' :: t := List.head?_eq_some_iff.mp hpair.2
          rw [joinReturns_cons, if_neg (by simp), List.cons_prefix_cons] at hl
          exact absurd (hl.1 ▸ List.mem_cons_self) hfeed
      · cases l with
        | nil => exact List.nil_prefix
        | cons e l =>
          rw [List.cons_prefix_cons] at hl ⊢
          exact ⟨hl.1, ih (fun hmem => hfeed (List.mem_cons_of_mem e hmem)) hl.2⟩
  induction s with
  | nil => exact h
  | cons c s ih =>
    rw [joinReturns_cons] at h
    split at h
    · exact (ih h).trans (List.suffix_cons c s).isInfix
    · rename_i hpair
      rcases List.infix_cons_iff.mp h with hbegins | hinfix
      · refine (hfree hl ?_).isInfix
        rwa [joinReturns_cons, if_neg hpair]
      · exact (ih hinfix).trans (List.suffix_cons c s).isInfix

/-! ## Lines -/

/-- Every line is a stretch of the text without line ends. -/
theorem infix_of_mem_anyLines {s l : List Char} (h : l ∈ anyLines s) :
    l <:+: s ∧ ∀ c ∈ l, isLineEnd c = false := by
  have hpart : l ∈ splitWhere isLineEnd (joinReturns s) := by
    unfold anyLines at h
    dsimp only at h
    split at h
    · exact (List.dropLast_subset _) h
    · exact h
  obtain ⟨hstretch, hplain⟩ := infix_of_mem_splitWhere hpart
  exact ⟨infix_of_infix_joinReturns (fun hmem => absurd (hplain _ hmem) (by decide)) hstretch, hplain⟩

/-- Behind a line end that is no return before a feed the lines are those of the text that is left. -/
theorem anyLines_append_end {d : Char} {t : List Char} (hend : isLineEnd d = true)
    (hd : d = '\r' → t.head? ≠ some '\n') (s : List Char) :
    anyLines (s ++ d :: t) = anyLines (s ++ [d]) ++ anyLines t := by
  obtain ⟨u, hu⟩ := exists_joinReturns_concat s d
  have hne := splitWhere_ne_nil isLineEnd (joinReturns t)
  -- The empty part behind a line end at the end is no line.
  have hbefore : anyLines (s ++ [d]) = splitWhere isLineEnd u := by
    have hempty : splitWhere isLineEnd [] = [[]] := rfl
    rw [anyLines, hu, splitWhere_append_separator hend, hempty, List.getLast?_concat,
      if_pos (by simp), List.dropLast_concat]
  rw [hbefore, anyLines, anyLines, joinReturns_append_end hd, hu, List.append_assoc,
    List.singleton_append, splitWhere_append_separator hend, List.getLast?_append_of_ne_nil _ hne,
    List.dropLast_append_of_ne_nil hne]
  split <;> rfl

end StylesheetTrace.Text
