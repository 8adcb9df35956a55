import StylesheetTrace.Finding.Missing
import StylesheetTrace.Proofs.Finding.Strategy
import StylesheetTrace.Proofs.Stylesheet.TemplateTag

/-!
# What is named as missing

The element that a message calls missing is the first target of a rule whose identifier stands in
brackets in the message, or a word of the message (`missing?_names`). There are two exceptions. What
is left of a longer word behind the letters of `element` is taken for a name (`IsRemnant`). And the
identifier of a rule stands for an element only in capitals, but is looked for in any case: when the
first rule in brackets that demands an element is written otherwise, its identifier is given itself
(`Untranslated`); that happens for every such message in which the schema validator does not speak of
an element.
-/

namespace StylesheetTrace.Finding

open StylesheetTrace.Text

/-! ## Words and references -/

/-- The word is a whole row of word characters of the text. -/
def IsWordOf (w s : List Char) : Prop :=
  w ≠ [] ∧ (∀ c ∈ w, isWord c = true) ∧ ∃ before after, s = before ++ (w ++ after) ∧
    (∀ c ∈ before.getLast?, isWord c = false) ∧ ∀ c ∈ after.head?, isWord c = false

/-- Behind the word `missing` and on its line, in any case, a row of word characters begins with the
letters of `element`, and `w` is what is left of the row. -/
def IsRemnant (w s : List Char) : Prop :=
  w ≠ [] ∧ (∀ c ∈ w, isWord c = true) ∧ ∃ before v between u after,
    s = before ++ (v ++ (between ++ (u ++ (w ++ after)))) ∧ v.map foldCase = "missing".toList ∧
      '\n' ∉ between ∧ u.map foldCase = "element".toList ∧ ∀ c ∈ after.head?, isWord c = false

/-- The word is the identifier of a rule, its letters in any case. -/
def IsReference (w : List Char) : Prop :=
  isRuleId isCaselessLetter isCaselessAlphanum w = true

/-- The word is the identifier of a rule, its letters ASCII capitals. -/
def IsPlainReference (w : List Char) : Prop :=
  isRuleId Char.isUpper isUpperAlphanum w = true

instance (w : List Char) : Decidable (IsReference w) :=
  inferInstanceAs (Decidable (_ = true))

instance (w : List Char) : Decidable (IsPlainReference w) :=
  inferInstanceAs (Decidable (_ = true))

/-- The text begins with a rule in brackets, behind which, on the line, an element is demanded. -/
def Demands (w s : List Char) : Prop :=
  IsReference w ∧ ∃ u v after, s = '[' :: (w ++ ']' :: (u ++ (v ++ after))) ∧ '\n' ∉ u ∧
    ∃ p ∈ demands, v.map foldCase = p.toList

/-- The first rule of a text that demands an element. -/
def DemandsFirst (w s : List Char) : Prop :=
  ∃ t, t <:+ s ∧ Demands w t ∧ ∀ u v, u <:+ s → Demands v u → u <:+ t

/-- The schema validator speaks of no element, and the first rule that demands one is not written in
capitals. -/
def Untranslated (w s : List Char) : Prop :=
  hasForm missingChild? s = false ∧ hasForm unexpectedElement? s = false ∧ DemandsFirst w s ∧
    ¬ IsPlainReference w

/-- The name is the first target of a rule that stands in brackets in the text. -/
def IsTargetIn (table : RuleTable) (name : String) (s : List Char) : Prop :=
  ∃ id, IsPlainReference id ∧ '[' :: (id ++ [']']) <:+: s ∧
    (table.targets (String.ofList id)).head? = some name

/-- An identifier of a rule has a hyphen, so that a row of word characters is none. -/
theorem not_isRuleId_of_forall_isWord {letter alphanum : Char → Bool} {w : List Char}
    (h : ∀ c ∈ w, isWord c = true) : isRuleId letter alphanum w = false := by
  have hhyphen : '-' ∉ w := fun hmem => absurd (h _ hmem) (by decide)
  rw [isRuleId, splitOn_of_not_mem hhyphen]
  simp

/-- The characters of an identifier are those of its parts and hyphens. -/
theorem mem_ruleId {letter alphanum : Char → Bool} {w : List Char}
    (h : isRuleId letter alphanum w = true) {c : Char} (hc : c ∈ w) :
    (alphanum c || c == '-') = true := by
  have hparts : ∀ p ∈ splitOn '-' w, ∀ d ∈ p, alphanum d = true := by
    simp only [isRuleId, Bool.and_eq_true, List.all_eq_true] at h
    exact fun p hp => (h.2 p hp).2
  clear h
  induction w using part_induction (p := fun d => d == '-') with
  | last t ht =>
    rw [splitOn_of_not_mem (forall_beq_eq_false_iff.mp ht)] at hparts
    simp [hparts t (List.mem_singleton_self t) c hc]
  | part t d u ht hd ih =>
    obtain rfl := beq_iff_eq.mp hd
    rw [splitOn_append_cons (forall_beq_eq_false_iff.mp ht)] at hparts
    rcases List.mem_append.mp hc with hc | hc
    · simp [hparts t List.mem_cons_self c hc]
    · rcases List.mem_cons.mp hc with rfl | hc
      · simp
      · exact ih hc fun p hp => hparts p (List.mem_cons_of_mem t hp)

/-- The word is a whole row of word characters of the text, behind another character. -/
def IsWordBehind (w s : List Char) : Prop :=
  w ≠ [] ∧ (∀ c ∈ w, isWord c = true) ∧ ∃ d after, isWord d = false ∧ d :: (w ++ after) <:+ s ∧
    ∀ c ∈ after.head?, isWord c = false

/-- A word of a tail of the text, behind another character, is one of the text. -/
theorem IsWordBehind.of_suffix {w s t : List Char} (h : IsWordBehind w s) (hs : s <:+ t) :
    IsWordBehind w t := by
  obtain ⟨hne, hw, d, after, hd, htail, hafter⟩ := h
  exact ⟨hne, hw, d, after, hd, htail.trans hs, hafter⟩

/-- A word behind another character is a word. -/
theorem IsWordBehind.isWordOf {w s : List Char} (h : IsWordBehind w s) : IsWordOf w s := by
  obtain ⟨hne, hw, d, after, hd, ⟨before, rfl⟩, hafter⟩ := h
  refine ⟨hne, hw, before ++ [d], after, by simp, fun c hc => ?_, hafter⟩
  rw [List.getLast?_concat] at hc
  obtain rfl := Option.some.inj hc
  exact hd

/-- What is left of a longer word in a tail of the text is left of it in the text. -/
theorem IsRemnant.of_suffix {w s t : List Char} (h : IsRemnant w s) (hs : s <:+ t) :
    IsRemnant w t := by
  obtain ⟨hne, hw, before, v, between, u, after, rfl, hrest⟩ := h
  obtain ⟨x, rfl⟩ := hs
  exact ⟨hne, hw, x ++ before, v, between, u, after, by simp, hrest⟩

/-! ## The forms -/

/-- A phrase and what is read later in its line. -/
theorem phraseThen?_eq_some {α : Type} {phrase : String} {r : Reader α} {s rest : List Char} {a : α}
    (h : phraseThen? phrase r s = some (a, rest)) :
    ∃ v u t, s = v ++ (u ++ t) ∧ v.map foldCase = phrase.toList ∧ '\n' ∉ u ∧
      r t = some (a, rest) := by
  obtain ⟨x, hx, hline⟩ := Option.bind_eq_some_iff.mp h
  obtain ⟨v, hv, rfl⟩ := exists_of_afterCaseless? hx
  obtain ⟨u, t, rfl, hu, hread⟩ := inLine?_eq_some hline
  exact ⟨v, u, t, rfl, hv, hu, hread⟩

/-- The child that the schema expects is a word of the message. -/
theorem isWordBehind_missingChild {s w rest : List Char} (h : missingChild? s = some (w, rest)) :
    IsWordBehind w s := by
  obtain ⟨v, u, t, rfl, -, -, h⟩ := phraseThen?_eq_some h
  obtain ⟨v', u', t', rfl, -, -, h⟩ := phraseThen?_eq_some h
  obtain ⟨x, hx, hrun⟩ := braced?_eq_some h
  obtain ⟨rfl, hne, hw, hrest⟩ := run?_eq_some.mp hrun
  refine ⟨hne, hw, '\x7d', rest, by decide, ?_, hrest⟩
  calc
    '\x7d' :: (w ++ rest) <:+ t' := hx
    _ <:+ v' ++ (u' ++ t') := (List.suffix_append u' t').trans (List.suffix_append v' _)
    _ <:+ v ++ (u ++ (v' ++ (u' ++ t'))) := (List.suffix_append u _).trans (List.suffix_append v _)

/-- Behind a namespace in braces, or where there is none, no word goes on. -/
theorem exists_cons_skipBraces_suffix {d : Char} (hd : isWord d = false) (s : List Char) :
    ∃ e, isWord e = false ∧ e :: skipBraces s <:+ d :: s := by
  unfold skipBraces
  split
  · rename_i t
    cases hbraces : afterFirst? ['\x7d'] t with
    | none => exact ⟨d, hd, List.suffix_refl _⟩
    | some u =>
      refine ⟨'\x7d', by decide, ?_⟩
      rw [afterFirst?_eq_map_cutFrom?, Option.map_eq_some_iff] at hbraces
      obtain ⟨⟨before, u'⟩, hcut, rfl⟩ := hbraces
      obtain ⟨rfl, -⟩ := cut?_eq_some (by simp) hcut
      exact ((List.suffix_append before _).trans (List.suffix_cons _ _)).trans (List.suffix_cons d _)
  · exact ⟨d, hd, List.suffix_refl _⟩

/-- An element that the schema does not expect is a word of the message. -/
theorem isWordBehind_unexpectedElement {s w rest : List Char}
    (h : unexpectedElement? s = some (w, rest)) : IsWordBehind w s := by
  obtain ⟨v, u, t, rfl, -, -, h⟩ := phraseThen?_eq_some h
  simp only [notExpectedName?, wordInQuotes?, Option.bind_eq_bind, Option.bind_eq_some_iff,
    Option.some.injEq, Prod.mk.injEq] at h
  obtain ⟨x, hx, ⟨w', y⟩, ⟨⟨w'', z⟩, hrun, y', -, rfl, rfl⟩, -, -, rfl, rfl⟩ := h
  obtain ⟨hx', hne, hw, hrest⟩ := run?_eq_some.mp hrun
  obtain ⟨e, he, hsuffix⟩ := exists_cons_skipBraces_suffix (d := '\'') (by decide) x
  rw [hx'] at hsuffix
  refine ⟨hne, hw, e, z, he, ?_, hrest⟩
  calc
    e :: (w'' ++ z) <:+ '\'' :: x := hsuffix
    _ = t := (after?_eq_some.mp hx).symm
    _ <:+ v ++ (u ++ t) := (List.suffix_append u t).trans (List.suffix_append v _)

/-- Only the colon agrees with the colon regardless of case. -/
theorem eq_colon_of_foldCase {c : Char} (h : foldCase c = ':') : c = ':' := by
  by_cases hascii : c.toNat < 128
  · have hpoints : ∀ n < 128, foldCase (Char.ofNat n) = ':' → Char.ofNat n = ':' := by decide +kernel
    have hc := hpoints c.toNat hascii
    rw [Char.ofNat_toNat] at hc
    exact hc h
  · rw [foldCase, if_neg hascii] at h
    split at h
    · exact absurd h (by decide)
    · split at h
      · exact absurd h (by decide)
      · split at h
        · exact absurd h (by decide)
        · exact h

/-- The text behind blanks and a quote is the text itself, or stands behind one of those. -/
theorem skipQuote_dropWhile_cases (s : List Char) :
    skipQuote (s.dropWhile isBlank) = s ∨
      ∃ e, isWord e = false ∧ e :: skipQuote (s.dropWhile isBlank) <:+ s := by
  have hblanks : s.dropWhile isBlank = s ∨
      ∃ e, isWord e = false ∧ e :: s.dropWhile isBlank <:+ s := by
    induction s with
    | nil => exact Or.inl rfl
    | cons c s ih =>
      rw [List.dropWhile_cons]
      split
      · rename_i hc
        refine Or.inr ?_
        rcases ih with heq | ⟨e, he, hsuffix⟩
        · exact ⟨c, Stylesheet.isWord_of_isBlank hc, by rw [heq]⟩
        · exact ⟨e, he, hsuffix.trans (List.suffix_cons c s)⟩
      · exact Or.inl rfl
  have hquote : ∀ t, skipQuote t = t ∨ ∃ e, isWord e = false ∧ e :: skipQuote t <:+ t := by
    intro t
    unfold skipQuote
    split
    · exact Or.inr ⟨'\'', by decide, List.suffix_refl _⟩
    · exact Or.inr ⟨'"', by decide, List.suffix_refl _⟩
    · exact Or.inl rfl
  rcases hquote (s.dropWhile isBlank) with heq | ⟨e, he, hsuffix⟩
  · rw [heq]
    exact hblanks
  · exact Or.inr ⟨e, he, hsuffix.trans (List.dropWhile_suffix isBlank)⟩

/-- An element that the message calls missing is a word of the message, or what is left of a word that
begins like `element`. -/
theorem isWordBehind_or_isRemnant_calledMissing {s w rest : List Char}
    (h : calledMissing? s = some (w, rest)) : IsWordBehind w s ∨ IsRemnant w s := by
  obtain ⟨v, u, t, rfl, hv, hu, h⟩ := phraseThen?_eq_some h
  obtain ⟨x, hx, hrun⟩ := Option.bind_eq_some_iff.mp h
  obtain ⟨announcement, hannouncement, hafter⟩ := List.exists_of_findSome?_eq_some hx
  obtain ⟨y, hy, rfl⟩ := exists_of_afterCaseless? hafter
  obtain ⟨hchars, hne, hw, hrest⟩ := run?_eq_some.mp hrun
  rcases skipQuote_dropWhile_cases x with hsame | ⟨e, he, hsuffix⟩
  · -- The word follows the announcement at once, which ends with a colon or is the word `element`.
    rw [hsame] at hchars
    subst hchars
    simp only [List.mem_cons, List.not_mem_nil, or_false] at hannouncement
    have hcolon : ∀ first : List Char, y.map foldCase = first ++ [':'] →
        IsWordBehind w (v ++ (u ++ (y ++ (w ++ rest)))) := by
      intro first hfold
      obtain ⟨z, l, rfl, -, hl⟩ := List.map_eq_append_iff.mp hfold
      obtain ⟨c, rfl, hc⟩ := List.map_eq_singleton_iff.mp hl
      obtain rfl := eq_colon_of_foldCase hc
      exact ⟨hne, hw, ':', rest, by decide, ⟨v ++ (u ++ z), by simp⟩, hrest⟩
    rcases hannouncement with rfl | rfl | rfl
    · exact Or.inr ⟨hne, hw, [], v, u, y, rest, rfl, hv, hu, hy, hrest⟩
    · exact Or.inl (hcolon ['c', 'b', 'c'] hy)
    · exact Or.inl (hcolon ['c', 'a', 'c'] hy)
  · rw [hchars] at hsuffix
    refine Or.inl ⟨hne, hw, e, rest, he, ?_, hrest⟩
    calc
      e :: (w ++ rest) <:+ x := hsuffix
      _ <:+ y ++ x := List.suffix_append y x
      _ <:+ v ++ (u ++ (y ++ x)) := (List.suffix_append u _).trans (List.suffix_append v _)

/-- A rule in brackets is read with its identifier. -/
theorem ruleReference?_eq_some {letter alphanum : Char → Bool} (hclose : alphanum ']' = false)
    {s w rest : List Char} :
    ruleReference? letter alphanum s = some (w, rest) ↔
      isRuleId letter alphanum w = true ∧ s = '[' :: (w ++ ']' :: rest) := by
  constructor
  · intro h
    unfold ruleReference? at h
    split at h
    · rename_i t
      dsimp only at h
      split at h
      · rename_i hid
        obtain ⟨x, hx, heq⟩ := Option.map_eq_some_iff.mp h
        obtain ⟨hw, rfl⟩ := Prod.mk.inj heq
        rw [hw] at hid hx
        refine ⟨hid, congrArg ('[' :: ·) ?_⟩
        have hword : t.take w.length = w := by
          rw [← hw]
          exact (List.prefix_iff_eq_take.mp (List.takeWhile_prefix _)).symm
        calc
          t = t.take w.length ++ t.drop w.length := (List.take_append_drop _ t).symm
          _ = w ++ ']' :: x := by rw [hword, after?_eq_some.mp hx, List.singleton_append]
      · exact absurd h (by simp)
    · exact absurd h (by simp)
  · rintro ⟨hid, rfl⟩
    have hend : ∀ c ∈ (']' :: rest).head?, (alphanum c || c == '-') = false :=
      head?_cons_eq_false (by simp [hclose]) rest
    have htake : ((w ++ ']' :: rest).takeWhile fun c => alphanum c || c == '-') = w := by
      rw [takeWhile_append_of_head hend]
      exact List.takeWhile_eq_self_iff.mpr fun c hc => mem_ruleId hid hc
    simp only [ruleReference?, htake, if_pos hid, List.drop_left]
    rfl

/-- A rule that demands an element is read with its identifier. -/
theorem map_fst_demandingRule?_eq_some {s w : List Char} :
    (demandingRule? s).map Prod.fst = some w ↔ Demands w s := by
  have hclose : isCaselessAlphanum ']' = false := by decide
  have hdemand : ∀ t, (demands.findSome? fun p => afterCaseless? p.toList t).isSome = true ↔
      ∃ v after, t = v ++ after ∧ ∃ p ∈ demands, v.map foldCase = p.toList := by
    intro t
    rw [List.findSome?_isSome_iff]
    constructor
    · rintro ⟨p, hp, hsome⟩
      obtain ⟨after, hafter⟩ := Option.isSome_iff_exists.mp hsome
      obtain ⟨v, hv, rfl⟩ := exists_of_afterCaseless? hafter
      exact ⟨v, after, rfl, p, hp, hv⟩
    · rintro ⟨v, after, rfl, p, hp, hv⟩
      exact ⟨p, hp, by rw [afterCaseless?_append hv]; rfl⟩
  have hline : ∀ t, (inLine? (fun s => (demands.findSome? fun p => afterCaseless? p.toList s).map
      fun x => ((), x)) t).isSome = true ↔ ∃ u v after, t = u ++ (v ++ after) ∧ '\n' ∉ u ∧
        ∃ p ∈ demands, v.map foldCase = p.toList := by
    intro t
    rw [isSome_inLine?_iff]
    constructor
    · rintro ⟨u, x, rfl, hu, hx⟩
      rw [Option.isSome_map, hdemand] at hx
      obtain ⟨v, after, rfl, hp⟩ := hx
      exact ⟨u, v, after, rfl, hu, hp⟩
    · rintro ⟨u, v, after, rfl, hu, hp⟩
      refine ⟨u, v ++ after, rfl, hu, ?_⟩
      rw [Option.isSome_map, hdemand]
      exact ⟨v, after, rfl, hp⟩
  constructor
  · intro h
    obtain ⟨⟨w', rest⟩, hread, rfl⟩ := Option.map_eq_some_iff.mp h
    simp only [demandingRule?, Option.bind_eq_bind, Option.bind_eq_some_iff, Option.some.injEq,
      Prod.mk.injEq] at hread
    obtain ⟨⟨id, t⟩, hreference, ⟨_, x⟩, hx, rfl, -⟩ := hread
    obtain ⟨hid, rfl⟩ := (ruleReference?_eq_some hclose).mp hreference
    obtain ⟨u, v, after, rfl, hu, hp⟩ := (hline t).mp (by rw [hx]; rfl)
    exact ⟨hid, u, v, after, rfl, hu, hp⟩
  · rintro ⟨hid, u, v, after, rfl, hu, hp⟩
    obtain ⟨⟨_, x⟩, hx⟩ := Option.isSome_iff_exists.mp ((hline _).mpr ⟨u, v, after, rfl, hu, hp⟩)
    rw [demandingRule?, (ruleReference?_eq_some hclose).mpr ⟨hid, rfl⟩]
    simp only [Option.bind_eq_bind, Option.bind_some, hx]
    rfl

/-- The first rule that demands an element is the first one that is read. -/
theorem firstForm?_demandingRule?_eq_some {s w : List Char} :
    firstForm? demandingRule? s = some w ↔ DemandsFirst w s := by
  have hsome : ∀ t, (demandingRule? t).isSome = true ↔ ∃ v, Demands v t := by
    intro t
    rw [← Option.isSome_map (f := Prod.fst), Option.isSome_iff_exists]
    exact exists_congr fun v => map_fst_demandingRule?_eq_some
  rw [firstForm?_eq_some_iff rfl]
  simp only [map_fst_demandingRule?_eq_some, hsome, DemandsFirst, forall_exists_index]
  exact exists_congr fun t => and_congr_right fun _ => and_congr_right fun _ =>
    ⟨fun h u v hu => h u hu v, fun h u hu v => h u v hu⟩

/-! ## The missing element -/

/-- A row of word characters stands for itself. -/
theorem missingFor?_of_forall_isWord (table : RuleTable) {w : List Char}
    (h : ∀ c ∈ w, isWord c = true) : missingFor? table w = some (String.ofList w) := by
  rw [missingFor?, if_neg (by simp [not_isRuleId_of_forall_isWord h])]

/-- What is read by a form that reads rows of word characters is given as it is. -/
theorem bind_missingFor?_eq_none {table : RuleTable} {form : Reader (List Char)}
    (hform : ∀ s w rest, form s = some (w, rest) → ∀ c ∈ w, isWord c = true) {s : List Char} :
    (firstForm? form s).bind (missingFor? table) = none ↔ hasForm form s = false := by
  have hsome : (firstForm? form s).isSome = hasForm form s := Option.isSome_map
  rw [← hsome]
  cases hfirst : firstForm? form s with
  | none => exact iff_of_true rfl rfl
  | some w =>
    obtain ⟨t, rest, -, hread⟩ := exists_of_firstForm? hfirst
    rw [Option.bind_some, missingFor?_of_forall_isWord table (hform t w rest hread)]
    simp

/-- What a form reads that reads rows of word characters is a word of the message, or what is left of
one, and is no reference. -/
theorem isWordOf_or_isRemnant {table : RuleTable} {s : List Char} {form : Reader (List Char)}
    (hform : ∀ s w rest, form s = some (w, rest) → IsWordBehind w s ∨ IsRemnant w s) {name : String}
    (h : (firstForm? form s).bind (missingFor? table) = some name) :
    (IsWordOf name.toList s ∧ ¬ IsReference name.toList) ∨
      (IsRemnant name.toList s ∧ ¬ IsReference name.toList) := by
  obtain ⟨w, hfirst, hname⟩ := Option.bind_eq_some_iff.mp h
  obtain ⟨t, rest, ht, hread⟩ := exists_of_firstForm? hfirst
  have hw : ∀ c ∈ w, isWord c = true := (hform t w rest hread).elim (fun h => h.2.1) fun h => h.2.1
  rw [missingFor?_of_forall_isWord table hw] at hname
  obtain rfl := Option.some.inj hname
  rw [String.toList_ofList]
  have hreference : ¬ IsReference w := by
    rw [IsReference, not_isRuleId_of_forall_isWord hw]
    exact Bool.false_ne_true
  rcases hform t w rest hread with hword | hremnant
  · exact Or.inl ⟨(hword.of_suffix ht).isWordOf, hreference⟩
  · exact Or.inr ⟨hremnant.of_suffix ht, hreference⟩

/-- The identifier of the first rule that demands an element gives its first target if it is in capitals,
and otherwise stands for itself. -/
theorem missingFor?_of_demandsFirst {table : RuleTable} {s w : List Char} (h : DemandsFirst w s)
    {name : String} (hname : missingFor? table w = some name) :
    IsTargetIn table name s ∨ (name.toList = w ∧ ¬ IsPlainReference w) := by
  rw [missingFor?] at hname
  split at hname
  · rename_i hid
    obtain ⟨t, ht, ⟨-, u, v, after, rfl, -⟩, -⟩ := h
    refine Or.inl ⟨w, hid, List.IsInfix.trans ?_ ht.isInfix, hname⟩
    exact ⟨[], u ++ (v ++ after), by simp⟩
  · rename_i hid
    obtain rfl := Option.some.inj hname
    exact Or.inr ⟨String.toList_ofList, hid⟩

/-- The forms are asked in order. -/
theorem missing?_eq_or (table : RuleTable) (message : String) :
    missing? table message =
      ((firstForm? missingChild? message.toList).bind (missingFor? table)).or
        (((firstForm? unexpectedElement? message.toList).bind (missingFor? table)).or
          (((firstForm? demandingRule? message.toList).bind (missingFor? table)).or
            ((firstForm? calledMissing? message.toList).bind (missingFor? table)))) := by
  simp only [missing?, missingForms, List.findSome?_cons, List.findSome?_nil]
  cases (firstForm? missingChild? message.toList).bind (missingFor? table) <;>
  cases (firstForm? unexpectedElement? message.toList).bind (missingFor? table) <;>
  cases (firstForm? demandingRule? message.toList).bind (missingFor? table) <;>
  cases (firstForm? calledMissing? message.toList).bind (missingFor? table) <;> rfl

/-- The element that is named as missing is the first target of a rule in brackets, or a word of the
message and no reference to a rule, but for two kinds of messages: a remnant of a word is given, or the
identifier of the first rule that demands an element and is not written in capitals. The latter is given
for all messages of its kind. -/
theorem missing?_names (table : RuleTable) (message : String) :
    (∀ name, missing? table message = some name →
      IsTargetIn table name message.toList ∨
      (IsWordOf name.toList message.toList ∧ ¬ IsReference name.toList) ∨
      (IsRemnant name.toList message.toList ∧ ¬ IsReference name.toList) ∨
      Untranslated name.toList message.toList) ∧
    ∀ name, Untranslated name.toList message.toList → missing? table message = some name := by
  have hchild : (firstForm? missingChild? message.toList).bind (missingFor? table) = none ↔
      hasForm missingChild? message.toList = false :=
    bind_missingFor?_eq_none fun _ _ _ h => (isWordBehind_missingChild h).2.1
  have helement : (firstForm? unexpectedElement? message.toList).bind (missingFor? table) = none ↔
      hasForm unexpectedElement? message.toList = false :=
    bind_missingFor?_eq_none fun _ _ _ h => (isWordBehind_unexpectedElement h).2.1
  rw [missing?_eq_or]
  refine ⟨fun name h => ?_, fun name h => ?_⟩
  · -- The first form that gives a name decides.
    rcases Option.or_eq_some_iff.mp h with h | ⟨hnochild, h⟩
    · have hword := isWordOf_or_isRemnant (fun _ _ _ h => Or.inl (isWordBehind_missingChild h)) h
      exact Or.inr (or_assoc.mp (Or.inl hword))
    rcases Option.or_eq_some_iff.mp h with h | ⟨hnoelement, h⟩
    · have hword := isWordOf_or_isRemnant (fun _ _ _ h => Or.inl (isWordBehind_unexpectedElement h)) h
      exact Or.inr (or_assoc.mp (Or.inl hword))
    rcases Option.or_eq_some_iff.mp h with h | ⟨-, h⟩
    · obtain ⟨w, hfirst, hname⟩ := Option.bind_eq_some_iff.mp h
      have hdemands := firstForm?_demandingRule?_eq_some.mp hfirst
      rcases missingFor?_of_demandsFirst hdemands hname with htarget | ⟨rfl, hid⟩
      · exact Or.inl htarget
      · exact Or.inr (Or.inr (Or.inr ⟨hchild.mp hnochild, helement.mp hnoelement, hdemands, hid⟩))
    · have hword := isWordOf_or_isRemnant (fun _ _ _ h => isWordBehind_or_isRemnant_calledMissing h) h
      exact Or.inr (or_assoc.mp (Or.inl hword))
  · obtain ⟨hnochild, hnoelement, hdemands, hid⟩ := h
    unfold IsPlainReference at hid
    have hfirst := firstForm?_demandingRule?_eq_some.mpr hdemands
    rw [hchild.mpr hnochild, helement.mpr hnoelement, hfirst, Option.bind_some, missingFor?,
      if_neg hid, String.ofList_toList]
    rfl

end StylesheetTrace.Finding
