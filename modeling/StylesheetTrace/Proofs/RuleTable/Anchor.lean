import StylesheetTrace.Proofs.RuleTable.Override
import StylesheetTrace.Proofs.Yaml.Alias

/-!
# Anchors in tables of rules

The check for anchors finds an ampersand that stands at the beginning of the text, or behind a blank, a
hyphen or a colon, and in front of a word character (`mentionsAnchor_iff`). A text in which there is one
is refused. An anchor that the grammar allows elsewhere, as behind a bracket, or whose name begins with
another character, is concealed from the check.
-/

namespace StylesheetTrace.RuleTable

open StylesheetTrace.Text StylesheetTrace.Yaml

/-- The check sees an ampersand between the two parts of a text. -/
def IsExposed (before behind : List Char) : Prop :=
  (∀ c ∈ before.getLast?, isBlank c = true ∨ c = '-' ∨ c = ':') ∧ ∃ c ∈ behind.head?, isWord c = true

/-- The check sees one of the ampersands of the text. -/
def Exposes (s : List Char) : Prop :=
  ∃ before behind, s = before ++ '&' :: behind ∧ IsExposed before behind

/-- The condition of the check. -/
theorem opensAnchor_iff {last : Option Char} {rest : List Char} :
    opensAnchor last rest = true ↔
      (∀ c ∈ last, isBlank c = true ∨ c = '-' ∨ c = ':') ∧ ∃ c ∈ rest.head?, isWord c = true := by
  simp only [opensAnchor, Bool.and_eq_true, Option.all_eq_true_iff_get, Option.any_eq_true]
  refine and_congr ?_ ?_
  · cases last <;> simp [or_assoc]
  · simp

/-- The check sees an ampersand somewhere behind a character. -/
theorem mentionsAnchorFrom_iff {last : Option Char} {s : List Char} :
    mentionsAnchorFrom last s = true ↔ ∃ before behind, s = before ++ '&' :: behind ∧
      opensAnchor (before.getLast?.or last) behind = true := by
  induction s generalizing last with
  | nil => simp [mentionsAnchorFrom]
  | cons c rest ih =>
    rw [mentionsAnchorFrom]
    constructor
    · intro h
      split at h
      · rename_i hopens
        rw [Bool.and_eq_true, beq_iff_eq] at hopens
        obtain ⟨rfl, hopens⟩ := hopens
        exact ⟨[], rest, rfl, hopens⟩
      · obtain ⟨before, behind, rfl, hopens⟩ := ih.mp h
        refine ⟨c :: before, behind, rfl, ?_⟩
        rw [List.getLast?_cons]
        cases hlast : before.getLast? <;> simpa [hlast] using hopens
    · rintro ⟨before, behind, hs, hopens⟩
      split
      · rfl
      · rename_i hnot
        cases before with
        | nil =>
          obtain ⟨rfl, rfl⟩ := List.cons.inj hs
          exact absurd (by simpa using hopens) hnot
        | cons d before =>
          obtain ⟨rfl, rfl⟩ := List.cons.inj hs
          refine ih.mpr ⟨before, behind, rfl, ?_⟩
          rw [List.getLast?_cons] at hopens
          cases hlast : before.getLast? <;> simpa [hlast] using hopens

/-- The check finds the ampersands that are exposed. -/
theorem mentionsAnchor_iff {s : List Char} : mentionsAnchor s = true ↔ Exposes s := by
  rw [mentionsAnchor, mentionsAnchorFrom_iff]
  simp only [Option.or_none, opensAnchor_iff]
  rfl

/-- A text that exposes an ampersand is refused, over any table. -/
theorem overrideBy_of_exposes {s : List Char} (h : Exposes s) (t : RuleTable) :
    t.overrideBy s = .error (.tooLong s.length) ∨ t.overrideBy s = .error .anchor := by
  -- Before anything is read, the size is checked, and then whether there are anchors.
  unfold overrideBy rulesOfYaml
  split
  · exact Or.inl rfl
  · rw [if_pos (mentionsAnchor_iff.mpr h)]
    exact Or.inr rfl

/-- A text that gives a table is read to its end without a refusal. -/
theorem exists_fold_of_overrideBy {t t' : RuleTable} {s : List Char} (h : t.overrideBy s = .ok t') :
    ∃ d, foldEvents Composition.step s .start = .ok d := by
  obtain ⟨rules, hrules, -⟩ := map_eq_ok.mp h
  have hvalue : ∃ v, Value.ofText s = .ok v := by
    unfold rulesOfYaml at hrules
    split at hrules
    · exact absurd hrules (by simp)
    split at hrules
    · exact absurd hrules (by simp)
    split at hrules
    · exact absurd hrules (by simp)
    · rename_i hvalue
      exact ⟨_, hvalue⟩
    · rename_i v _ hvalue
      exact ⟨v, hvalue⟩
  obtain ⟨v, hvalue⟩ := hvalue
  obtain ⟨d, hdocument, -⟩ := bind_eq_ok.mp hvalue
  unfold Document.ofText at hdocument
  split at hdocument
  · exact absurd hdocument (by simp)
  · obtain ⟨c, hfold, -⟩ := bind_eq_ok.mp hdocument
    exact ⟨c, hfold⟩

/-- A text that exposes an ampersand is refused, over any table, and whatever is taken for an anchor or an
alias is written in the text. For an anchor or an alias that is recognised while a text is loaded there
are three outcomes: the text is refused; or no ampersand of it is exposed, and it can not be handled; or
none is exposed, and it gives a table, and then an anchor of the name is recognised, and the name is
written in the text behind an ampersand. -/
theorem overrideBy_of_marks (t : RuleTable) (s : List Char) :
    (Exposes s → t.overrideBy s = .error (.tooLong s.length) ∨ t.overrideBy s = .error .anchor) ∧
    (∀ u ∈ (tokens s).1, u.kind.IsWritten s) ∧
    ∀ n, Recognizes s (.anchor n) ∨ Recognizes s (.aliasOf n) →
      (∃ e, t.overrideBy s = .error e ∧ e.IsRefusal) ∨
      (¬ Exposes s ∧ ∃ b, t.overrideBy s = .error (.yaml (.broken b))) ∨
      (¬ Exposes s ∧ (∃ t', t.overrideBy s = .ok t') ∧ Recognizes s (.anchor n) ∧ Written s '&' n) := by
  refine ⟨fun h => overrideBy_of_exposes h t, isWritten_of_mem_tokens, fun n hmark => ?_⟩
  have hhidden : ∀ {r}, t.overrideBy s = r → (∀ e, r = .error e → ¬ e.IsRefusal) → ¬ Exposes s := by
    rintro r hr hno hexposes
    rcases overrideBy_of_exposes hexposes t with h | h
    · exact hno _ (hr.symm.trans h) trivial
    · exact hno _ (hr.symm.trans h) trivial
  cases hresult : t.overrideBy s with
  | ok t' =>
    obtain ⟨d, hfold⟩ := exists_fold_of_overrideBy hresult
    have hanchor := Recognizes.anchor hmark hfold
    exact Or.inr (Or.inr ⟨hhidden hresult (by simp), ⟨t', rfl⟩, hanchor, hanchor.isWritten⟩)
  | error e =>
    by_cases hrefusal : e.IsRefusal
    · exact Or.inl ⟨e, rfl, hrefusal⟩
    · -- What is no refusal is a breakdown.
      have hbroken : ∃ b, e = .yaml (.broken b) := by
        unfold OverrideError.IsRefusal at hrefusal
        split at hrefusal
        · rename_i b
          exact ⟨b, rfl⟩
        · exact absurd trivial hrefusal
      obtain ⟨b, rfl⟩ := hbroken
      refine Or.inr (Or.inl ⟨hhidden hresult ?_, b, rfl⟩)
      rintro _ ⟨⟩
      exact hrefusal

/-- The check sees no anchor behind a bracket. -/
example : (empty.overrideBy "BR-01: [&a A, *a]".toList).toOption =
    some ⟨[("BR-01", ["A", "A"])]⟩ := by decide +kernel

end StylesheetTrace.RuleTable
