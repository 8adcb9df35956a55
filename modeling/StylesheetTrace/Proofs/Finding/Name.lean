import Mathlib.Data.List.Infix
import StylesheetTrace.Finding.Name
import StylesheetTrace.Proofs.Markup.Tag

/-!
# The element that a schema validator names

The message of a schema validator begins with the word `Element` and the qualified name of an
element in apostrophes. Whatever the namespace and the text behind the name are, the element named
there is the only one that the message is about (`names_schemaMessage`).
-/

namespace StylesheetTrace.Finding

open StylesheetTrace.Text StylesheetTrace.Markup

/-- The beginning of the message of a schema validator, up to the apostrophe behind the name. -/
def schemaHead (uri name : List Char) : List Char :=
  "Element '".toList ++ '\x7b' :: (uri ++ '\x7d' :: (name ++ ['\'']))

/-- A local name that the message of a schema validator can name: a letter, and letters, digits, `_`
and `-` after it. -/
def IsElementName (n : LocalName) : Prop :=
  n.first.isAlpha = true ∧ ∀ c ∈ n.rest, isNameChar c = true

/-- What holds of the ASCII characters holds of the characters of a prefix. -/
theorem of_isPrefixChar {p : Char → Prop} (h : ∀ n < 128, p (Char.ofNat n)) {c : Char}
    (hc : isPrefixChar c = true) : p c := by
  -- The character is one of the first 128, for each of which the property is given.
  have hascii : c.toNat < 128 := by
    have hrange := toNat_of_isPrefixChar hc
    omega
  have hp := h c.toNat hascii
  rwa [Char.ofNat_toNat] at hp

/-- An ASCII letter is one regardless of case. -/
theorem isCaselessLetter_of_isAlpha {c : Char} (h : c.isAlpha = true) :
    isCaselessLetter c = true := by
  have hchar : isPrefixChar c = true := by simp [isPrefixChar, Char.isAlphanum, h]
  exact @of_isPrefixChar (fun c => c.isAlpha = true → isCaselessLetter c = true)
    (by decide +kernel) c hchar h

/-- A name character is one regardless of case. -/
theorem isCaselessNameChar_of_isNameChar {c : Char} (h : isNameChar c = true) :
    isCaselessNameChar c = true := by
  have hchar : isPrefixChar c = true := by
    simp only [isNameChar, isPrefixChar, Bool.or_eq_true] at h ⊢
    rcases h with (h | h) | h
    · exact Or.inl (Or.inl (Or.inl h))
    · exact Or.inl (Or.inl (Or.inr h))
    · exact Or.inr h
  exact @of_isPrefixChar (fun c => isNameChar c = true → isCaselessNameChar c = true)
    (by decide +kernel) c hchar h

/-- A word is passed over whatever the case of its letters. -/
theorem afterCaseless?_append {w v : List Char} (h : v.map foldCase = w) (s : List Char) :
    afterCaseless? w (v ++ s) = some s := by
  induction v generalizing w with
  | nil =>
    subst h
    rfl
  | cons c v ih =>
    subst h
    rw [List.map_cons, List.cons_append, afterCaseless?, if_pos (beq_self_eq_true _), ih rfl]

/-- What is passed over as a word regardless of case agrees with it. -/
theorem exists_of_afterCaseless? {w s rest : List Char} (h : afterCaseless? w s = some rest) :
    ∃ v, v.map foldCase = w ∧ s = v ++ rest := by
  induction w generalizing s with
  | nil => exact ⟨[], rfl, Option.some.inj h⟩
  | cons d w ih =>
    cases s with
    | nil => exact absurd h (by simp [afterCaseless?])
    | cons c s =>
      rw [afterCaseless?] at h
      split at h
      · rename_i hc
        obtain ⟨v, rfl, rfl⟩ := ih h
        exact ⟨c :: v, by rw [List.map_cons, eq_of_beq hc], rfl⟩
      · exact absurd h (by simp)

/-- The word `Element` and a qualified name in apostrophes are read as the local name. -/
theorem schemaElement?_schemaHead {uri : List Char} (huri : '\x7d' ∉ uri) {n : LocalName}
    (hn : IsElementName n) (rest : List Char) :
    schemaElement? (schemaHead uri n.chars ++ rest) = some (n.chars, rest) := by
  have hrest : ∀ c ∈ n.rest, isCaselessNameChar c = true := fun c hc =>
    isCaselessNameChar_of_isNameChar (hn.2 c hc)
  have hquote : ∀ c ∈ ('\'' :: rest).head?, isCaselessNameChar c = false :=
    head?_cons_eq_false (by decide) rest
  have hletter : isCaselessLetter n.first = true := isCaselessLetter_of_isAlpha hn.1
  have hfirst : isCaselessNameChar n.first = true := by
    refine isCaselessNameChar_of_isNameChar ?_
    simp [isNameChar, Char.isAlphanum, hn.1]
  have hclose : ¬ ['\x7d'] <:+: uri := by rwa [List.singleton_infix_iff]
  have hbraces : skipBraces ('\x7b' :: (uri ++ '\x7d' :: (n.chars ++ '\'' :: rest))) =
      n.chars ++ '\'' :: rest := by
    have hafter := afterFirst?_append (v := []) (c := '\x7d') List.not_mem_nil hclose
      (n.chars ++ '\'' :: rest)
    simp only [List.nil_append, List.singleton_append] at hafter
    rw [skipBraces, hafter]
    rfl
  have hword : ∀ first, first n.first = true →
      word? first isCaselessNameChar (n.chars ++ '\'' :: rest) = some (n.chars, '\'' :: rest) := by
    intro first h
    rw [LocalName.chars, List.cons_append, word?, if_pos h, takeWhile_append_of_head hquote,
      dropWhile_append_of_head hquote, List.takeWhile_eq_self_iff.mpr hrest,
      List.dropWhile_eq_nil_iff.mpr hrest, List.nil_append]
  -- An apostrophe follows the name, and no colon, so that it is not taken for a prefix.
  have hqualifier : afterCaselessPrefix? (n.chars ++ '\'' :: rest) = none := by
    rw [afterCaselessPrefix?, run?, hword _ hfirst, Option.bind_some]
    exact after?_cons_of_ne (by decide) [] rest
  have hname : nameInQuotes? (n.chars ++ '\'' :: rest) = some (n.chars, rest) := by
    rw [nameInQuotes?, hword _ hletter]
    simp
  have hchars : schemaHead uri n.chars ++ rest = "Element".toList ++
      ' ' :: '\'' :: '\x7b' :: (uri ++ '\x7d' :: (n.chars ++ '\'' :: rest)) := by
    have hword : "Element '".toList = "Element".toList ++ [' ', '\''] := by decide
    unfold schemaHead
    simp only [hword, List.append_assoc, List.cons_append, List.nil_append]
  have helement : ∀ s, afterCaseless? "element".toList ("Element".toList ++ s) = some s :=
    afterCaseless?_append (by decide)
  have hblank : ∀ s, run? isBlank (' ' :: '\'' :: s) = some ([' '], '\'' :: s) := by
    intro s
    have hspace : isBlank ' ' = true := by decide
    have hmark : isBlank '\'' = false := by decide
    simp [run?, word?, hspace, hmark]
  rw [schemaElement?, hchars, helement]
  simp only [Option.bind_eq_bind, Option.bind_some, hblank, after?_cons_cons, after?_nil, hbraces,
    hqualifier, Option.bind_none, Option.none_or, hname]

/-- The elements that the message of a schema validator is about. -/
theorem names_schemaMessage {uri : List Char} (huri : '\x7d' ∉ uri) {n : LocalName}
    (hn : IsElementName n) {roots : List String} (hroots : n.text ∉ roots) (table : RuleTable)
    (rest : List Char) :
    names table roots (String.ofList (schemaHead uri n.chars ++ rest)) none = [n.text] := by
  have hread := schemaElement?_schemaHead huri hn rest
  have hschema : schemaNames (schemaHead uri n.chars ++ rest) = [n.text] := by
    have hform := firstForm?_append_of_silent (t := []) trivial hread
    rw [List.nil_append] at hform
    rw [schemaNames, hform]
    rfl
  -- There is no rule, so that the message itself is asked first.
  have htargets : specific roots (table.targets none) = [] := rfl
  have hspecific : specific roots [n.text] = [n.text] := by
    have hsingle : [n.text].eraseDups = [n.text] := by
      rw [List.eraseDups_cons, List.filter_nil, List.eraseDups_nil]
    rw [specific, hsingle, List.filter_cons_of_pos (by simpa using hroots), List.filter_nil]
  simp [names, strategies, htargets, hschema, hspecific]

end StylesheetTrace.Finding
