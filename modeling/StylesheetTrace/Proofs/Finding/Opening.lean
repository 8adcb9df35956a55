import StylesheetTrace.Finding.Mapping
import StylesheetTrace.Location.Extent
import StylesheetTrace.Proofs.Markup.Line

/-!
# The line that opens an element

Two searches look for the first line that opens an element: that for the extent of the first step of
a location path, and that for the line of an issue. They read the tag of an element alike but for its
namespace prefix: the second does not read a prefix with a dot. So it may pass over the line which the
first one finds, and never stops before it; and both find the same line exactly when the line of the
first one holds a tag of the element whose prefix, if it has one, is without dots
(`openingLine?_agrees_iff`).
-/

namespace StylesheetTrace.Finding

open StylesheetTrace.Text StylesheetTrace.Markup StylesheetTrace.Location

/-- The tag of an element with the given name begins in the line: the name stands behind `<`, and it
ends there. -/
def HoldsTag (q : QName) (line : String) : Prop :=
  ∃ before rest, line.toList = before ++ '<' :: (q.chars ++ rest) ∧ endsName rest = true

section

variable {ok : Char → Bool} (hok : ∀ c, ok c = true → isPrefixChar c = true) {n : LocalName}
include hok

/-- Where a tag is read as one that opens `n`, it bears `n` behind a prefix that may be skipped. -/
theorem exists_of_opening? {s : List Char} (h : (opening? ok n.chars s).isSome = true) :
    ∃ q : QName, ∃ rest, q.isNamed ok n.chars = true ∧ s = '<' :: (q.chars ++ rest) ∧
      endsName rest = true := by
  -- Behind the name, read with or without a prefix, only the end of the name is asked for.
  have hends : ∀ {t : List Char}, ((after? n.chars t).bind fun r =>
      if endsName r then some ((), r) else none).isSome = true →
      ∃ rest, t = n.chars ++ rest ∧ endsName rest = true := by
    intro t ht
    obtain ⟨form, hform⟩ := Option.isSome_iff_exists.mp ht
    obtain ⟨rest, hrest, hif⟩ := Option.bind_eq_some_iff.mp hform
    split at hif
    · exact ⟨rest, after?_eq_some.mp hrest, ‹_›⟩
    · exact absurd hif (by simp)
  unfold opening? at h
  split at h
  · rename_i t
    unfold qualified at h
    split at h
    · rename_i form hform
      obtain ⟨behind, hbehind, hname⟩ := Option.bind_eq_some_iff.mp hform
      obtain ⟨rest, rfl, hrest⟩ := hends (Option.isSome_iff_exists.mpr ⟨form, hname⟩)
      obtain ⟨ht, hne⟩ := eq_of_afterPrefix? hbehind
      refine ⟨⟨some ⟨t.takeWhile ok, hne, fun c hc => hok c (List.mem_takeWhile_imp hc)⟩, n⟩, rest,
        ?_, ?_, hrest⟩
      · simp [QName.isNamed, QName.qualifiedBy]
      · rw [QName.chars_some]
        exact congrArg ('<' :: ·) ht
    · obtain ⟨rest, rfl, hrest⟩ := hends h
      exact ⟨⟨none, n⟩, rest, by simp [QName.isNamed, QName.qualifiedBy], rfl, hrest⟩
  · exact absurd h (by simp)

/-- A line is read as one that opens `n` exactly when it holds a tag of `n` with a prefix that may be
skipped, or without one. -/
theorem hasForm_opening_iff {line : String} :
    hasForm (opening? ok n.chars) line.toList = true ↔
      ∃ q : QName, q.isNamed ok n.chars = true ∧ HoldsTag q line := by
  rw [hasForm_iff]
  constructor
  · rintro ⟨u, ⟨before, hline⟩, hread⟩
    obtain ⟨q, rest, hq, rfl, hrest⟩ := exists_of_opening? hok hread
    exact ⟨q, hq, before, rest, hline.symm, hrest⟩
  · rintro ⟨q, hq, before, rest, hline, hrest⟩
    refine ⟨'<' :: (q.chars ++ rest), ⟨before, hline.symm⟩, ?_⟩
    rw [opening?_append hok n.nameLike q hrest, if_pos hq]
    rfl

end

/-- The prefix of a name is skipped by the second search exactly when it has no dot. -/
theorem isNamed_isPlainPrefixChar {q : QName} {n : LocalName} :
    q.isNamed isPlainPrefixChar n.chars = true ↔ q.name = n ∧ '.' ∉ q.front := by
  have hplain : ∀ c, isPrefixChar c = true → (isPlainPrefixChar c = true ↔ c ≠ '.') := by
    intro c hc
    constructor
    · rintro h rfl
      exact absurd h (by decide)
    · intro hdot
      simp only [isPrefixChar, isPlainPrefixChar, Bool.or_eq_true, beq_iff_eq] at hc ⊢
      rcases hc with ((hc | hc) | hc) | hc
      · exact Or.inl (Or.inl hc)
      · exact Or.inl (Or.inr hc)
      · exact absurd hc hdot
      · exact Or.inr hc
  obtain ⟨qualifier, name⟩ := q
  rw [QName.isNamed, Bool.and_eq_true, beq_iff_eq, LocalName.chars_inj, eq_comm]
  refine and_congr_right fun _ => ?_
  cases qualifier with
  | none => simp [QName.qualifiedBy, QName.front]
  | some p =>
    simp only [QName.qualifiedBy, QName.front, Option.all_some, List.all_eq_true, List.mem_append,
      List.mem_singleton, not_or]
    constructor
    · intro h
      exact ⟨fun hdot => (hplain '.' (by decide)).mp (h '.' hdot) rfl, by decide⟩
    · rintro ⟨hdot, -⟩ c hc
      refine (hplain c (p.chars_ok c hc)).mpr ?_
      rintro rfl
      exact hdot hc

/-- The first search finds the lines that hold a tag of the element. -/
theorem opensIn_iff {n : LocalName} {line : String} :
    opensIn n.text line = true ↔ ∃ q : QName, q.name = n ∧ HoldsTag q line := by
  rw [opensIn, LocalName.text, String.toList_ofList, hasForm_opening_iff fun _ h => h]
  simp only [QName.isNamed_isPrefixChar, decide_eq_true_iff]

/-! ## The first of the lines -/

section

variable {α : Type} {p q : α → Bool} (hpq : ∀ x, q x = true → p x = true)
include hpq

/-- A search that finds less than another does not stop before it. -/
theorem exists_findIdx?_le {xs : List α} {j : Nat} (h : xs.findIdx? q = some j) :
    ∃ i, xs.findIdx? p = some i ∧ i ≤ j := by
  obtain ⟨hlt, hq, -⟩ := List.findIdx?_eq_some_iff_getElem.mp h
  cases hfind : xs.findIdx? p with
  | none =>
    have hnone := List.findIdx?_eq_none_iff.mp hfind xs[j] (List.getElem_mem hlt)
    exact absurd (hnone.symm.trans (hpq _ hq)) (by simp)
  | some i =>
    obtain ⟨_, _, hbefore⟩ := List.findIdx?_eq_some_iff_getElem.mp hfind
    exact ⟨i, rfl, Nat.le_of_not_lt fun hji => hbefore j hji (hpq _ hq)⟩

/-- A search that finds less than another finds the same exactly when it finds what the other finds
first. -/
theorem findIdx?_eq_iff (xs : List α) :
    xs.findIdx? q = xs.findIdx? p ↔ ∀ i ∈ xs.findIdx? p, ∃ x ∈ xs[i]?, q x = true := by
  constructor
  · intro heq i hi
    rw [← heq] at hi
    obtain ⟨hlt, hq, -⟩ := List.findIdx?_eq_some_iff_getElem.mp hi
    exact ⟨xs[i], List.getElem?_eq_getElem hlt, hq⟩
  · intro h
    cases hfind : xs.findIdx? p with
    | none => exact List.findIdx?_eq_none_of_findIdx?_eq_none (fun x _ => hpq x) hfind
    | some i =>
      obtain ⟨x, hx, hq⟩ := h i hfind
      obtain ⟨hlt, rfl⟩ := List.getElem?_eq_some_iff.mp hx
      obtain ⟨_, _, hbefore⟩ := List.findIdx?_eq_some_iff_getElem.mp hfind
      exact List.findIdx?_eq_some_iff_getElem.mpr
        ⟨hlt, hq, fun j hj hqj => hbefore j hj (hpq _ hqj)⟩

end

/-- The extent of the first element begins on the first line that opens it. -/
theorem first_extentFrom (n : String) (i : Nat) (ls : List String) :
    (extentFrom n 1 i ls).map Extent.first = (ls.findIdx? (opensIn n)).map (· + i) := by
  induction ls generalizing i with
  | nil => rfl
  | cons l ls ih =>
    rw [extentFrom, List.findIdx?_cons]
    cases opensIn n l with
    | true => simp
    | false =>
      rw [if_neg (by simp), ih, if_neg (by simp), Option.map_map]
      refine congrArg (Option.map · _) (funext fun k => ?_)
      simp only [Function.comp_apply]
      omega

/-- The extent of the first element among all lines begins on the first line that opens it. -/
theorem first_findExtent (n : String) (ls : List String) :
    (findExtent n 1 ls 0 (ls.length - 1)).map Extent.first = ls.findIdx? (opensIn n) := by
  have hstop : (min ((ls.length : Int) - 1) (ls.length - 1) + 1).toNat = ls.length := by omega
  rw [findExtent, hstop]
  simp [first_extentFrom]

/-- The second search finds the lines that hold a tag of the element whose prefix, if it has one, is
without dots. -/
theorem hasForm_plain_iff {n : LocalName} {line : String} :
    hasForm (opening? isPlainPrefixChar n.text.toList) line.toList = true ↔
      ∃ q : QName, q.name = n ∧ '.' ∉ q.front ∧ HoldsTag q line := by
  rw [LocalName.text, String.toList_ofList,
    hasForm_opening_iff fun _ h => isPrefixChar_of_isPlainPrefixChar h]
  simp only [isNamed_isPlainPrefixChar, and_assoc]

/-- The line found for an issue about an element is not before the one that opens the element; and it
is that line exactly when the line holds a tag of the element whose prefix, if it has one, is without
dots. -/
theorem openingLine?_agrees_iff (n : LocalName) (lines : List String) :
    (∀ k ∈ openingLine? n.text lines,
      ∃ e ∈ findExtent n.text 1 lines 0 (lines.length - 1), e.first + 1 ≤ k) ∧
    (openingLine? n.text lines =
        (findExtent n.text 1 lines 0 (lines.length - 1)).map (fun e => e.first + 1) ↔
      ∀ e ∈ findExtent n.text 1 lines 0 (lines.length - 1), ∃ line ∈ lines[e.first]?,
        ∃ q : QName, q.name = n ∧ '.' ∉ q.front ∧ HoldsTag q line) := by
  -- A line that the second search finds is one that the first finds.
  have hless : ∀ line : String,
      hasForm (opening? isPlainPrefixChar n.text.toList) line.toList = true →
        opensIn n.text line = true := by
    intro line h
    obtain ⟨q, hq, -, hline⟩ := hasForm_plain_iff.mp h
    exact opensIn_iff.mpr ⟨q, hq, hline⟩
  have hfirst := first_findExtent n.text lines
  constructor
  · intro k hk
    obtain ⟨j, hj, rfl⟩ := Option.map_eq_some_iff.mp hk
    obtain ⟨i, hi, hle⟩ := exists_findIdx?_le hless hj
    rw [← hfirst] at hi
    obtain ⟨e, he, rfl⟩ := Option.map_eq_some_iff.mp hi
    exact ⟨e, he, Nat.succ_le_succ hle⟩
  · have hextent : (findExtent n.text 1 lines 0 (lines.length - 1)).map (fun e => e.first + 1) =
        (lines.findIdx? (opensIn n.text)).map (· + 1) := by
      rw [← hfirst, Option.map_map]
      rfl
    rw [hextent, openingLine?, Option.map_inj_right fun _ _ h => Nat.succ.inj h,
      findIdx?_eq_iff hless, ← hfirst]
    simp only [hasForm_plain_iff, Option.mem_def, Option.map_eq_some_iff, forall_exists_index,
      and_imp, forall_apply_eq_imp_iff₂]

/-- The second search passes over a prefix with a dot. -/
example : openingLine? "Name" ["<a.b:Name/>"] = none ∧
    findExtent "Name" 1 ["<a.b:Name/>"] 0 0 = some ⟨0, 0⟩ := by decide +kernel

end StylesheetTrace.Finding
