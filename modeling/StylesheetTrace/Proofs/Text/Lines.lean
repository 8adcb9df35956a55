import Mathlib.Data.List.Basic
import StylesheetTrace.Text.Lines

/-!
# Lines and their join

Cutting a text into lines undoes the join of lines that hold no line feed (`lines_join`), provided
that no line but the last ends with a carriage return. The lines of a text are stretches of it, and
hold no carriage return when the text has none outside the pair that ends a line.
-/

namespace StylesheetTrace.Text

/-! ## Parts between characters -/

/-- A text always has a part. -/
theorem splitWhere_ne_nil (p : Char → Bool) (s : List Char) : splitWhere p s ≠ [] := by
  induction s with
  | nil => simp [splitWhere]
  | cons c s ih =>
    unfold splitWhere at ih ⊢
    rw [List.foldr_cons]
    split
    · simp
    · split <;> simp

/-- A text without the separator is its only part. -/
theorem splitWhere_of_forall_not {p : Char → Bool} {t : List Char} (h : ∀ c ∈ t, p c = false) :
    splitWhere p t = [t] := by
  induction t with
  | nil => rfl
  | cons c t ih =>
    have ht := ih fun d hd => h d (List.mem_cons_of_mem c hd)
    unfold splitWhere at ht ⊢
    rw [List.foldr_cons, ht, h c List.mem_cons_self]
    rfl

/-- The first part of a text ends at the first separator. -/
theorem splitWhere_append_cons {p : Char → Bool} {t : List Char} (h : ∀ c ∈ t, p c = false)
    {d : Char} (hd : p d = true) (s : List Char) :
    splitWhere p (t ++ d :: s) = t :: splitWhere p s := by
  induction t with
  | nil =>
    unfold splitWhere
    rw [List.nil_append, List.foldr_cons, if_pos hd]
  | cons c t ih =>
    have ht := ih fun d hd => h d (List.mem_cons_of_mem c hd)
    unfold splitWhere at ht ⊢
    rw [List.cons_append, List.foldr_cons, ht, h c List.mem_cons_self]
    rfl

/-- Induction along the parts of a text: it has no separator, or its first part ends at one. -/
@[elab_as_elim]
theorem part_induction {p : Char → Bool} {motive : List Char → Prop} (s : List Char)
    (last : ∀ t, (∀ c ∈ t, p c = false) → motive t)
    (part : ∀ t d u, (∀ c ∈ t, p c = false) → p d = true → motive u → motive (t ++ d :: u)) :
    motive s := by
  induction hn : s.length using Nat.strongRecOn generalizing s with
  | _ n ih =>
    cases hfind : s.find? p with
    | none =>
      refine last s fun c hc => ?_
      simpa using List.find?_eq_none.mp hfind c hc
    | some d =>
      -- The text is cut at its first separator, and what is left is shorter.
      obtain ⟨hd, t, u, rfl, ht⟩ := List.find?_eq_some_iff_append.mp hfind
      rw [List.length_append, List.length_cons] at hn
      refine part t d u (fun c hc => ?_) hd (ih u.length (by omega) u rfl)
      simpa using ht c hc

/-- The separator `d` stands in no text without it. -/
theorem forall_beq_eq_false_iff {d : Char} {t : List Char} :
    (∀ c ∈ t, (c == d) = false) ↔ d ∉ t := by
  constructor
  · exact fun h hd => absurd (h d hd) (by simp)
  · rintro h c hc
    rw [beq_eq_false_iff_ne]
    rintro rfl
    exact h hc

/-- A text without the character `d` is its only part. -/
theorem splitOn_of_not_mem {d : Char} {t : List Char} (h : d ∉ t) : splitOn d t = [t] :=
  splitWhere_of_forall_not (forall_beq_eq_false_iff.mpr h)

/-- The first part of a text ends at the first character `d`. -/
theorem splitOn_append_cons {d : Char} {t : List Char} (h : d ∉ t) (s : List Char) :
    splitOn d (t ++ d :: s) = t :: splitOn d s :=
  splitWhere_append_cons (forall_beq_eq_false_iff.mpr h) (beq_self_eq_true d) s

/-- Texts without the character `d` are the parts of their join by it. -/
theorem splitOn_intercalate {d : Char} : ∀ {ls : List (List Char)}, ls ≠ [] → (∀ l ∈ ls, d ∉ l) →
    splitOn d ([d].intercalate ls) = ls
  | [], h, _ => absurd rfl h
  | [l], _, hl => by
    rw [List.intercalate_singleton]
    exact splitOn_of_not_mem (hl l List.mem_cons_self)
  | l :: m :: ls, _, hl => by
    rw [List.intercalate_cons_cons, List.append_assoc, List.singleton_append,
      splitOn_append_cons (hl l List.mem_cons_self),
      splitOn_intercalate (List.cons_ne_nil m ls) fun x hx => hl x (List.mem_cons_of_mem l hx)]

/-- A character that stands in none of the texts, and is not the one between them, does not stand in
their join. -/
theorem not_mem_intercalate {c d : Char} (hd : c ≠ d) : ∀ {ls : List (List Char)},
    (∀ l ∈ ls, c ∉ l) → c ∉ [d].intercalate ls
  | [], _ => List.not_mem_nil
  | [l], hl => by
    rw [List.intercalate_singleton]
    exact hl l List.mem_cons_self
  | l :: m :: ls, hl => by
    have ih := not_mem_intercalate hd fun x hx => hl x (List.mem_cons_of_mem l hx)
    rw [List.intercalate_cons_cons]
    exact List.not_mem_append (List.not_mem_append (hl l List.mem_cons_self)
      (List.not_mem_cons_of_ne_of_not_mem hd List.not_mem_nil)) ih

/-! ## Lines -/

/-- Induction along the lines of a text: it has no line feed, or its first line ends at one. -/
@[elab_as_elim]
theorem feed_induction {motive : List Char → Prop} (s : List Char)
    (last : ∀ t, '\n' ∉ t → motive t)
    (line : ∀ t u, '\n' ∉ t → motive u → motive (t ++ '\n' :: u)) : motive s := by
  induction s using part_induction (p := fun c => c == '\n') with
  | last t ht => exact last t (forall_beq_eq_false_iff.mp ht)
  | part t d u ht hd ih =>
    obtain rfl := beq_iff_eq.mp hd
    exact line t u (forall_beq_eq_false_iff.mp ht) ih

/-- A text without a line feed is its only line. -/
theorem lines_of_not_mem {t : List Char} (h : '\n' ∉ t) : lines t = [t] := by
  rw [lines, splitOn_of_not_mem h]
  rfl

/-- A text always has a line. -/
theorem lines_ne_nil (s : List Char) : lines s ≠ [] := by
  unfold lines
  cases h : splitOn '\n' s with
  | nil => exact absurd h (splitWhere_ne_nil _ s)
  | cons part parts =>
    rw [List.foldr_cons]
    split <;> simp

/-- The first line of a text ends at the first line feed, without the carriage return before it. -/
theorem lines_append_feed {t : List Char} (h : '\n' ∉ t) (s : List Char) :
    lines (t ++ '\n' :: s) = dropReturn t :: lines s := by
  have hne := lines_ne_nil s
  unfold lines at hne ⊢
  rw [splitOn_append_cons h, List.foldr_cons, if_neg]
  rwa [List.isEmpty_iff]

/-- The lines of a text but for its last are lines of any longer text, which has a further one. -/
theorem lines_append (s t : List Char) :
    ∃ ls l m ms, lines s = ls ++ [l] ∧ lines (s ++ t) = ls ++ m :: ms := by
  induction s using feed_induction with
  | last s hs =>
    obtain ⟨m, ms, hlines⟩ := List.exists_cons_of_ne_nil (lines_ne_nil (s ++ t))
    exact ⟨[], s, m, ms, lines_of_not_mem hs, hlines⟩
  | line s u hs ih =>
    obtain ⟨ls, l, m, ms, hshort, hlong⟩ := ih
    refine ⟨dropReturn s :: ls, l, m, ms, ?_, ?_⟩
    · rw [lines_append_feed hs, hshort, List.cons_append]
    · rw [List.append_assoc, List.cons_append, lines_append_feed hs, hlong, List.cons_append]

/-- A text has one line more than line feeds. -/
theorem length_lines_eq_count (s : List Char) : (lines s).length = s.count '\n' + 1 := by
  induction s using feed_induction with
  | last t ht => rw [lines_of_not_mem ht, List.length_singleton, List.count_eq_zero_of_not_mem ht]
  | line t u ht ih =>
    rw [lines_append_feed ht, List.length_cons, ih, List.count_append, List.count_cons_self,
      List.count_eq_zero_of_not_mem ht, Nat.zero_add]

/-- A text has as many lines as there are parts between its line feeds. -/
theorem length_lines (s : List Char) : (lines s).length = (splitOn '\n' s).length := by
  induction s using feed_induction with
  | last t ht => rw [lines_of_not_mem ht, splitOn_of_not_mem ht]
  | line t u ht ih =>
    rw [lines_append_feed ht, splitOn_append_cons ht, List.length_cons, List.length_cons, ih]

/-- A line that does not end with a carriage return loses nothing. -/
theorem dropReturn_of_getLast? {t : List Char} (h : t.getLast? ≠ some '\r') : dropReturn t = t := by
  rw [dropReturn, if_neg]
  rwa [beq_iff_eq]

/-- The join of lines, character by character. -/
theorem toList_joinLines (ls : List (List Char)) :
    (joinLines (ls.map String.ofList)).toList = ['\n'].intercalate ls := by
  unfold joinLines
  rw [String.toList_intercalate, List.map_map]
  congr 1
  exact List.map_id'' (fun l => String.toList_ofList) ls

/-- Lines without a line feed, none of which but the last ends with a carriage return, are the lines
of their join. -/
theorem lines_join : ∀ {ls : List (List Char)}, ls ≠ [] → (∀ l ∈ ls, '\n' ∉ l) →
    (∀ l ∈ ls.dropLast, l.getLast? ≠ some '\r') → lines (['\n'].intercalate ls) = ls
  | [], h, _, _ => absurd rfl h
  | [l], _, hfeed, _ => by
    rw [List.intercalate_singleton]
    exact lines_of_not_mem (hfeed l List.mem_cons_self)
  | l :: m :: ls, _, hfeed, hreturn => by
    rw [List.dropLast_cons_cons] at hreturn
    rw [List.intercalate_cons_cons, List.append_assoc, List.singleton_append,
      lines_append_feed (hfeed l List.mem_cons_self),
      dropReturn_of_getLast? (hreturn l List.mem_cons_self),
      lines_join (List.cons_ne_nil m ls) (fun x hx => hfeed x (List.mem_cons_of_mem l hx))
        (fun x hx => hreturn x (List.mem_cons_of_mem l hx))]

/-- Every line of a text is a stretch of it without a line feed. -/
theorem infix_of_mem_lines {s l : List Char} (h : l ∈ lines s) : l <:+: s ∧ '\n' ∉ l := by
  induction s using feed_induction with
  | last t ht =>
    rw [lines_of_not_mem ht, List.mem_singleton] at h
    subst h
    exact ⟨List.infix_refl l, ht⟩
  | line t u ht ih =>
    rw [lines_append_feed ht, List.mem_cons] at h
    rcases h with rfl | h
    · have hbegins : dropReturn t <+: t := by
        unfold dropReturn
        split
        · exact List.dropLast_prefix t
        · exact List.prefix_refl t
      exact ⟨(hbegins.trans (List.prefix_append t _)).isInfix, fun hmem => ht (hbegins.subset hmem)⟩
    · obtain ⟨hstretch, hfeed⟩ := ih h
      have hsuffix : u <:+ t ++ '\n' :: u :=
        (List.suffix_cons '\n' u).trans (List.suffix_append t _)
      exact ⟨hstretch.trans hsuffix.isInfix, hfeed⟩

/-- Every carriage return of the text stands directly before a line feed. -/
def ReturnsPaired (s : List Char) : Prop :=
  ∀ t u, s = t ++ '\r' :: u → u.head? = some '\n'

/-- The lines of a text whose carriage returns all stand before a line feed hold none. -/
theorem not_mem_of_mem_lines {s l : List Char} (hs : ReturnsPaired s) (h : l ∈ lines s) :
    '\r' ∉ l := by
  induction s using feed_induction with
  | last t ht =>
    rw [lines_of_not_mem ht, List.mem_singleton] at h
    subst h
    intro hmem
    -- A carriage return would have a line feed behind it.
    obtain ⟨a, b, rfl, -⟩ := List.eq_append_cons_of_mem hmem
    have hb := List.mem_of_head? (hs a b rfl)
    exact ht (List.mem_append_right a (List.mem_cons_of_mem '\r' hb))
  | line t u ht ih =>
    rw [lines_append_feed ht, List.mem_cons] at h
    rcases h with rfl | h
    · by_cases hmem : '\r' ∈ t
      · -- The carriage return is the last character of the line, and the only one.
        obtain ⟨a, b, rfl, ha⟩ := List.eq_append_cons_of_mem hmem
        have hb := hs a (b ++ '\n' :: u) (by simp)
        cases b with
        | nil => simpa [dropReturn] using ha
        | cons c b =>
          obtain rfl : c = '\n' := by simpa using hb
          exact absurd (by simp) ht
      · unfold dropReturn
        split
        · exact fun hd => hmem ((List.dropLast_prefix t).subset hd)
        · exact hmem
    · refine ih (fun a b hu => ?_) h
      exact hs (t ++ '\n' :: a) b (by rw [hu]; simp)

/-! ## Lines with any end -/

/-- A text without carriage returns has none to join. -/
theorem joinReturns_eq_self {s : List Char} (h : '\r' ∉ s) : joinReturns s = s := by
  unfold joinReturns
  induction s with
  | nil => rfl
  | cons c s ih =>
    rw [List.mem_cons, not_or] at h
    have hc : (c == '\r') = false := beq_eq_false_iff_ne.mpr (Ne.symm h.1)
    rw [List.foldr_cons, hc, Bool.false_and, if_neg Bool.false_ne_true, ih h.2]

/-- A text without line ends, which may be followed by a line feed, is its only line. -/
theorem anyLines_of_forall_not {t : List Char} (hne : t ≠ [])
    (h : ∀ c ∈ t, isLineEnd c = false) (ended : Bool) :
    anyLines (t ++ if ended then ['\n'] else []) = [t] := by
  have hreturn : ∀ u : List Char, '\r' ∉ u → '\r' ∉ t ++ u := fun u hu =>
    List.not_mem_append (fun hmem => absurd (h _ hmem) (by decide)) hu
  unfold anyLines
  cases ended with
  | false =>
    rw [if_neg Bool.false_ne_true, joinReturns_eq_self (hreturn [] List.not_mem_nil),
      List.append_nil, splitWhere_of_forall_not h]
    simp [hne]
  | true =>
    -- The line feed cuts off an empty part at the end, which is no line.
    rw [if_pos rfl, joinReturns_eq_self (hreturn ['\n'] (by decide)),
      splitWhere_append_cons h (by decide)]
    rfl

end StylesheetTrace.Text
