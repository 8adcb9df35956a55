import StylesheetTrace.Proofs.Stylesheet.Document

/-!
# Bodies and the depth of the scan

The scan of the lines keeps a counter for the bodies that are open. Read tag by tag, a body is open
behind its start tag and up to its end tag, however the tags are laid out. A line is inserted only
before an element that lies in a body, unless the scan is misled about it (`inBody_of_inserts`). The
layouts that mislead it are named: `Drifts` has those in which a line, read for itself, shows other
bodies than it opens and closes, such as a template without content whose tag spans lines.

The proof follows the lines. What the scan sees of the tags of a line is related to the tokens that
begin on it (`depthAfter_le`), and from this the counter stays at or below the number of bodies that
are open in the document (`depthAt_le`).
-/

namespace StylesheetTrace.Stylesheet

open StylesheetTrace.Text StylesheetTrace.Markup

/-! ## Names of bodies -/

/-- The name of an instruction whose content is output. -/
def isBodyName (xsl name : List Char) : Bool :=
  bodyNames.any fun n => name == xsl ++ ':' :: n.toList

/-- The prefix of the instructions is made of the characters of a prefix. -/
theorem isPrefixChar_of_mem_instructionPrefix {content : List Char} {c : Char}
    (h : c ∈ instructionPrefix content) : isPrefixChar c = true := by
  unfold instructionPrefix at h
  cases hfirst : firstForm? binding? content with
  | none =>
    rw [hfirst] at h
    have hxsl : ∀ d ∈ "xsl".toList, isPrefixChar d = true :=
      List.all_iff_forall_prop.mp (by decide)
    exact hxsl c h
  | some bound =>
    rw [hfirst] at h
    obtain ⟨⟨t, a, rest⟩, hleftmost, rfl⟩ := Option.map_eq_some_iff.mp hfirst
    obtain ⟨u, -, hread⟩ := exists_of_leftmost? hleftmost
    unfold binding? at hread
    simp only [Option.bind_eq_bind, Option.bind_eq_some_iff] at hread
    obtain ⟨_, -, ⟨name, _⟩, hname, _, -, _, -, _, -, _, -, heq⟩ := hread
    obtain ⟨rfl, -⟩ := Prod.mk.inj (Option.some.inj heq)
    rcases (word?_eq_some hname).2 c h with hstart | hchar
    · exact isPrefixChar_of_isNameStart hstart
    · exact hchar

/-- The names of bodies are the prefix with one of their local names. -/
theorem isBodyName_iff {xsl name : List Char} :
    isBodyName xsl name = true ↔ ∃ n ∈ bodyNames, name = xsl ++ ':' :: n.toList := by
  simp [isBodyName]

section

variable {content name : List Char}

/-- The name of a body holds no character that stands in no name. -/
theorem not_mem_bodyName (h : isBodyName (instructionPrefix content) name = true) {d : Char}
    (hd : isPrefixChar d = false) (hcolon : d ≠ ':') : d ∉ name := by
  obtain ⟨n, hn, rfl⟩ := isBodyName_iff.mp h
  have hlocal : ∀ m ∈ bodyNames, ∀ c ∈ m.toList, isPrefixChar c = true := by
    intro m hm
    rcases List.mem_pair.mp hm with rfl | rfl
    · exact List.all_iff_forall_prop.mp (by decide)
    · exact List.all_iff_forall_prop.mp (by decide)
  have hfalse : ∀ c, isPrefixChar c = true → d ≠ c := by
    rintro c hc rfl
    exact Bool.false_ne_true (hd.symm.trans hc)
  rw [List.mem_append, List.mem_cons, not_or, not_or]
  exact ⟨fun hmem => hfalse d (isPrefixChar_of_mem_instructionPrefix hmem) rfl, hcolon,
    fun hmem => hfalse d (hlocal n hn d hmem) rfl⟩

end

/-- What is left behind the name of a body. -/
theorem afterInstruction?_append {xsl name : List Char} (h : isBodyName xsl name = true)
    (rest : List Char) : afterInstruction? xsl bodyNames (name ++ rest) = some rest := by
  obtain ⟨n, hn, rfl⟩ := isBodyName_iff.mp h
  have hword : xsl ++ ':' :: n.toList ++ rest = (xsl ++ [':']) ++ (n.toList ++ rest) := by simp
  rw [afterInstruction?, hword, after?_append, Option.bind_some]
  rcases List.mem_pair.mp hn with rfl | rfl
  · rw [bodyNames, List.findSome?_cons, after?_append]
  · have hother : after? "template".toList ("function".toList ++ rest) = none :=
      after?_cons_of_ne (by decide) _ _
    rw [bodyNames, List.findSome?_cons, hother, List.findSome?_cons, after?_append]

/-- An instruction that is read is a body, and its name stands before what is left. -/
theorem afterInstruction?_eq_some {xsl s rest : List Char}
    (h : afterInstruction? xsl bodyNames s = some rest) :
    ∃ name, isBodyName xsl name = true ∧ s = name ++ rest := by
  obtain ⟨t, ht, hname⟩ := Option.bind_eq_some_iff.mp h
  obtain ⟨n, hn, hrest⟩ := List.exists_of_findSome?_eq_some hname
  refine ⟨xsl ++ ':' :: n.toList, isBodyName_iff.mpr ⟨n, hn, rfl⟩, ?_⟩
  rw [after?_eq_some.mp ht, after?_eq_some.mp hrest]
  simp

/-- A text looks like the start tag of a body: its name stands behind `<`, as a word. -/
def LooksOpening (xsl s : List Char) : Prop :=
  ∃ name rest, isBodyName xsl name = true ∧ s = '<' :: (name ++ rest) ∧ endsWord rest = true

/-- What looks like the start tag of a body is what the scan reads as one. -/
theorem looksOpening_iff {xsl s : List Char} :
    LooksOpening xsl s ↔ (instructionOpening? xsl bodyNames s).isSome = true := by
  constructor
  · rintro ⟨name, rest, hname, rfl, hrest⟩
    rw [instructionOpening?, afterInstruction?_append hname, Option.bind_some, if_pos hrest]
    rfl
  · intro h
    unfold instructionOpening? at h
    split at h
    · obtain ⟨form, hform⟩ := Option.isSome_iff_exists.mp h
      obtain ⟨rest, hafter, hends⟩ := Option.bind_eq_some_iff.mp hform
      obtain ⟨name, hname, rfl⟩ := afterInstruction?_eq_some hafter
      split at hends
      · rename_i hrest
        exact ⟨name, rest, hname, rfl, hrest⟩
      · exact absurd hends (by simp)
    · exact absurd h (by simp)

/-! ## Words on lines -/

/-- A word that ends before what is left of a line ends there in the whole text too. -/
theorem endsWord_append {s rest : List Char} (hs : endsWord s = true) (hrest : FollowsLine rest) :
    endsWord (s ++ rest) = true := by
  cases s with
  | cons c s => exact hs
  | nil =>
    rcases hrest with rfl | ⟨feed, t, rfl | rfl, rfl⟩
    · rfl
    · rfl
    · rfl

/-- Whether a word ends before a text is seen at the beginning of the text. -/
theorem endsWord_of_append {s t : List Char} (h : endsWord (s ++ t) = true) : endsWord s = true := by
  cases s with
  | nil => rfl
  | cons c s => exact h

/-- A word at the head of a name and more lies in the name, if what follows the name is not in it. -/
theorem append_of_word {word name rest s : List Char} {c : Char} (h : name ++ c :: s = word ++ rest)
    (hc : c ∉ word) (hrest : endsWord rest = true) : ∃ x, name = word ++ x ∧ endsWord x = true := by
  obtain ⟨x, hname, hx⟩ := append_cons_eq_append hc h
  exact ⟨x, hname, endsWord_of_append (hx ▸ hrest)⟩

/-! ## Tokens on lines -/

section

variable {doc : List Token} {k : Nat} {line : List Char}

/-- A token that does not leave the line on which it begins stands on it as it is, behind what the
tokens before it leave on this line. -/
theorem token_behind {ps qs : List Token} {t : Token}
    (hline : (lines (render (ps ++ t :: qs)))[(render ps).count '\n']? = some line)
    (hfeed : '\n' ∉ t.chars) (hlast : ∃ s, t.chars = s ++ ['>']) :
    ∃ p q, line = p ++ (t.chars ++ q) ∧
      render ps = textBefore ((render ps).count '\n') (render (ps ++ t :: qs)) ++ p := by
  obtain ⟨p, hps, hp⟩ := eq_textBefore_append (render ps) (t.chars ++ render qs)
  obtain ⟨rest, htext, -, hrest⟩ := textBefore_append_line hline
  rw [render_append, render_cons] at htext
  -- Both texts go on behind the lines before this one.
  have hsame : (p ++ t.chars) ++ render qs = line ++ rest := by
    conv_lhs at htext => rw [hps]
    rw [List.append_assoc] at htext
    rw [List.append_assoc]
    exact List.append_cancel_left htext
  have hend : (p ++ t.chars).getLast? ≠ some '\r' := by
    obtain ⟨s, hs⟩ := hlast
    simp [hs]
  obtain ⟨q, hq⟩ := prefix_line hsame (by simp [hp, hfeed]) hend hrest
  refine ⟨p, q, by rw [← hq, List.append_assoc], ?_⟩
  rw [render_append, render_cons]
  exact hps

/-- A token that begins on a line and does not leave it stands on it as it is. -/
theorem token_on_line {t : Token} (ht : (k, t) ∈ numbered 0 doc)
    (hline : (lines (render doc))[k]? = some line) (hfeed : '\n' ∉ t.chars)
    (hlast : ∃ s, t.chars = s ++ ['>']) : ∃ p q, line = p ++ (t.chars ++ q) := by
  obtain ⟨ps, qs, rfl, rfl⟩ := mem_numbered.mp ht
  obtain ⟨p, q, hline, -⟩ := token_behind hline hfeed hlast
  exact ⟨p, q, hline⟩

/-- A `<` on a line belongs to a token that begins on this line or before it. -/
theorem token_of_lt {p q : List Char} (hline : (lines (render doc))[k]? = some (p ++ '<' :: q)) :
    ∃ ps t qs a b rest, doc = ps ++ t :: qs ∧ t.chars = a ++ '<' :: b ∧
      textBefore k (render doc) ++ p = render ps ++ a ∧ q ++ rest = b ++ render qs ∧
      FollowsLine rest ∧ (render ps).count '\n' + a.count '\n' = k := by
  obtain ⟨rest, htext, hfeed, hrest⟩ := textBefore_append_line hline
  have hlt : render doc = (textBefore k (render doc) ++ p) ++ '<' :: (q ++ rest) := by
    simpa [List.append_assoc] using htext
  obtain ⟨ps, t, qs, a, b, hdoc, hchars, hbefore, hbehind⟩ := render_eq_append_cons hlt
  refine ⟨ps, t, qs, a, b, rest, hdoc, hchars, hbefore, hbehind, hrest, ?_⟩
  have hk : k < (lines (render doc)).length := (List.getElem?_eq_some_iff.mp hline).1
  rw [← List.count_append, ← hbefore, List.count_append, count_textBefore hk,
    List.count_eq_zero_of_not_mem fun hmem => hfeed (List.mem_append_left _ hmem), Nat.add_zero]

/-! ## What the scan sees on a line -/

/-- The element of a document with this name is a body. -/
def IsBody (doc : List Token) (name : List Char) : Bool :=
  isBodyName (instructionPrefix (render doc)) name

/-- How line `k` of a document, read for itself, can show the scan other bodies than it opens and
closes: an element without content spans lines or has a `>` in its attributes; an end tag spans
lines, or stands on a line that begins inside a comment; more than one body is closed, and fewer are
opened; an aside holds what looks like a body; the name of another element begins like that of a
body. -/
inductive Drifts (doc : List Token) (k : Nat) : Prop where
  | split (name attributes : List Char) (ht : (k, .empty name attributes) ∈ numbered 0 doc)
      (hname : IsBody doc name = true) (hflag : flagAt (render doc) k = false)
      (h : '\n' ∈ attributes ∨ '>' ∈ attributes)
  | missed (name blanks : List Char) (ht : (k, .closes name blanks) ∈ numbered 0 doc)
      (hname : IsBody doc name = true) (h : flagAt (render doc) k = true ∨ '\n' ∈ blanks)
  | crowded (hmany : 1 < begunOn (Token.closing (IsBody doc)) doc k)
      (h : begunOn (Token.opening (IsBody doc)) doc k < begunOn (Token.closing (IsBody doc)) doc k)
  | shown (i : Nat) (kind : AsideKind) (inside before rest : List Char)
      (ht : (i, .aside kind inside) ∈ numbered 0 doc)
      (hchars : (Token.aside kind inside).chars = before ++ rest)
      (hline : i + before.count '\n' = k) (hflag : flagAt (render doc) k = false)
      (h : LooksOpening (instructionPrefix (render doc)) rest)
  | alike (name attributes : List Char)
      (ht : (k, .opens name attributes) ∈ numbered 0 doc ∨
        (k, .empty name attributes) ∈ numbered 0 doc)
      (hname : IsBody doc name = false) (hflag : flagAt (render doc) k = false)
      (h : LooksOpening (instructionPrefix (render doc)) ('<' :: name))

/-- The character is in no name of a body and ends each word. -/
def Separates (c : Char) : Prop :=
  isPrefixChar c = false ∧ c ≠ ':' ∧ isWord c = false

instance (c : Char) : Decidable (Separates c) :=
  inferInstanceAs (Decidable (isPrefixChar c = false ∧ c ≠ ':' ∧ isWord c = false))

/-- Behind the name of a tag stands a character that separates it from what follows. -/
theorem behind_name {attributes : List Char} (h : attributes.head?.all isSpace = true) {c : Char}
    (hc : Separates c) (s : List Char) :
    ∃ d t, attributes ++ c :: s = d :: t ∧ Separates d := by
  obtain ⟨d, t, heq, hd⟩ := exists_cons_append_attributes h c s
  refine ⟨d, t, heq, ?_⟩
  rcases hd with hspace | rfl
  · simp only [isSpace, Bool.or_eq_true, beq_iff_eq] at hspace
    rcases hspace with ((rfl | rfl) | rfl) | rfl <;> decide
  · exact hc

/-- Behind a `<` in an aside stands the `>` that ends it. -/
theorem aside_tail {inside a b : List Char} {kind : AsideKind}
    (hchars : (Token.aside kind inside).chars = a ++ '<' :: b) : ∃ b', b = b' ++ ['>'] := by
  obtain ⟨s, hs⟩ := aside_chars kind inside
  rw [hs] at hchars
  rcases List.eq_nil_or_concat b with rfl | ⟨b', c, rfl⟩
  · exact absurd (List.append_inj' hchars rfl).2 (by decide)
  · rw [List.concat_eq_append, ← List.cons_append, ← List.append_assoc] at hchars
    exact ⟨b', by rw [List.concat_eq_append, (List.append_inj' hchars rfl).2]⟩

/-- A word that stands behind a `<` on a line and holds only characters of names belongs to an aside,
or begins the name of a tag that opens an element on this line. -/
theorem token_of_word {p word r : List Char} (hsound : ∀ t ∈ doc, t.Sound) (hne : word ≠ [])
    (hword : ∀ d, Separates d → d ∉ word)
    (hline : (lines (render doc))[k]? = some (p ++ '<' :: (word ++ r))) (hends : endsWord r = true) :
    ∃ ps t qs x, doc = ps ++ t :: qs ∧ endsWord x = true ∧
      ((∃ kind inside a, t = .aside kind inside ∧ t.chars = a ++ '<' :: (word ++ x) ∧
          textBefore k (render doc) ++ p = render ps ++ a ∧
          (render ps).count '\n' + a.count '\n' = k) ∨
        ∃ attributes, (t = .opens (word ++ x) attributes ∨ t = .empty (word ++ x) attributes) ∧
          (render ps).count '\n' = k) := by
  obtain ⟨ps, t, qs, a, b, rest, rfl, hchars, hbefore, hbehind, hrest, hcount⟩ := token_of_lt hline
  have ht : t.Sound := hsound t (List.mem_append_right ps List.mem_cons_self)
  have hends : endsWord (r ++ rest) = true := endsWord_append hends hrest
  rw [List.append_assoc] at hbehind
  rcases Token.lt_cases ht hchars with ⟨kind, inside, rfl⟩ | ⟨rfl, htag⟩
  · -- The aside ends with `>`, so that the word lies in it.
    obtain ⟨b, rfl⟩ := aside_tail hchars
    rw [List.append_assoc, List.singleton_append] at hbehind
    obtain ⟨x, rfl, hx⟩ := append_cons_eq_append (hword '>' (by decide)) hbehind.symm
    rw [hx] at hends
    refine ⟨ps, _, qs, x ++ ['>'], rfl, ?_, Or.inl ⟨kind, inside, a, rfl, ?_, hbefore, hcount⟩⟩
    · exact endsWord_of_append (t := render qs) (by simpa using hends)
    · rw [hchars, List.append_assoc]
  · rw [List.count_nil, Nat.add_zero] at hcount
    have hname : ∀ {name attributes s : List Char} {c : Char}, attributes.head?.all isSpace = true →
        Separates c → b ++ render qs = name ++ (attributes ++ c :: s) →
        ∃ x, name = word ++ x ∧ endsWord x = true := by
      intro name attributes s c hattributes hc h
      obtain ⟨d, u, hd, hseparates⟩ := behind_name hattributes hc s
      rw [← hbehind, hd] at h
      exact append_of_word h.symm (hword d hseparates) hends
    rcases htag with ⟨name, attributes, rfl⟩ | ⟨name, attributes, rfl⟩ | ⟨name, blanks, rfl⟩
    · have hb : name ++ (attributes ++ ['>']) = b := (List.cons.inj hchars).2
      have htext : b ++ render qs = name ++ (attributes ++ '>' :: render qs) := by simp [← hb]
      obtain ⟨x, rfl, hx⟩ := hname ht.2.1 (by decide) htext
      exact ⟨ps, _, qs, x, rfl, hx, Or.inr ⟨attributes, Or.inl rfl, hcount⟩⟩
    · have hb : name ++ (attributes ++ ['/', '>']) = b := (List.cons.inj hchars).2
      have htext : b ++ render qs = name ++ (attributes ++ '/' :: '>' :: render qs) := by
        simp [← hb]
      obtain ⟨x, rfl, hx⟩ := hname ht.2.1 (by decide) htext
      exact ⟨ps, _, qs, x, rfl, hx, Or.inr ⟨attributes, Or.inr rfl, hcount⟩⟩
    · -- Behind the `<` of an end tag stands a slash.
      have hb : '/' :: (name ++ (blanks ++ ['>'])) = b := (List.cons.inj hchars).2
      rw [← hb] at hbehind
      cases word with
      | nil => exact absurd rfl hne
      | cons c word =>
        obtain rfl := (List.cons.inj hbehind).1
        exact absurd List.mem_cons_self (hword '/' (by decide))

/-- The name of a body is a word of characters of names. -/
theorem word_of_isBodyName {content word : List Char}
    (h : isBodyName (instructionPrefix content) word = true) :
    word ≠ [] ∧ ∀ d, Separates d → d ∉ word := by
  refine ⟨?_, fun d hd => not_mem_bodyName h hd.1 hd.2.1⟩
  rintro rfl
  obtain ⟨n, -, hn⟩ := isBodyName_iff.mp h
  exact absurd hn (by simp)

/-- Where the scan sees the start tag of a body on a line, a tag of a body that opens an element
begins there, if the line does not drift. -/
theorem tag_of_opening (hdoc : WellFormed doc) (hline : (lines (render doc))[k]? = some line)
    (hflag : flagAt (render doc) k = false) (hdrift : ¬ Drifts doc k)
    (hopen : hasForm (instructionOpening? (instructionPrefix (render doc)) bodyNames) line = true) :
    ∃ name attributes, IsBody doc name = true ∧
      ((k, .opens name attributes) ∈ numbered 0 doc ∨
        (k, .empty name attributes) ∈ numbered 0 doc) := by
  obtain ⟨u, ⟨p, rfl⟩, hu⟩ := hasForm_iff.mp hopen
  obtain ⟨word, r, hword, rfl, hends⟩ := looksOpening_iff.mpr hu
  obtain ⟨hne, hchars⟩ := word_of_isBodyName hword
  obtain ⟨ps, t, qs, x, hps, hx, htoken⟩ := token_of_word hdoc.1 hne hchars hline hends
  have hmem : ((render ps).count '\n', t) ∈ numbered 0 doc := mem_numbered.mpr ⟨ps, qs, hps, rfl⟩
  rcases htoken with ⟨kind, inside, a, rfl, ha, -, hcount⟩ | ⟨attributes, htag, hcount⟩
  · exact absurd (.shown _ kind inside a _ hmem ha hcount hflag ⟨word, x, hword, rfl, hx⟩) hdrift
  · have htag : (k, .opens (word ++ x) attributes) ∈ numbered 0 doc ∨
        (k, .empty (word ++ x) attributes) ∈ numbered 0 doc := by
      rw [hcount] at hmem
      rcases htag with rfl | rfl
      · exact Or.inl hmem
      · exact Or.inr hmem
    refine ⟨word ++ x, attributes, ?_, htag⟩
    by_contra hnot
    exact hdrift (.alike _ attributes htag (Bool.not_eq_true _ ▸ hnot) hflag
      ⟨word, x, hword, rfl, hx⟩)

/-- A body without content that keeps to its line hides the start tags on it from the scan. -/
theorem hasForm_of_empty {name attributes : List Char}
    (ht : (k, .empty name attributes) ∈ numbered 0 doc)
    (hline : (lines (render doc))[k]? = some line) (hsound : (Token.empty name attributes).Sound)
    (hname : IsBody doc name = true) (hfeed : '\n' ∉ attributes) (hend : '>' ∉ attributes) :
    hasForm (instructionTag? (instructionPrefix (render doc)) bodyNames true) line = true := by
  have hnot : '\n' ∉ name := not_mem_bodyName hname (by decide) (by decide)
  obtain ⟨p, q, rfl⟩ := token_on_line ht hline (by simp [Token.chars, hnot, hfeed])
    ⟨'<' :: (name ++ (attributes ++ ['/'])), by simp [Token.chars]⟩
  refine hasForm_iff.mpr ⟨_, List.suffix_append p _, ?_⟩
  have hchars : (Token.empty name attributes).chars ++ q =
      '<' :: (name ++ ((attributes ++ ['/']) ++ '>' :: q)) := by simp [Token.chars]
  have hword : endsWord ((attributes ++ ['/']) ++ '>' :: q) = true := by
    obtain ⟨d, t, hd, -, -, hd'⟩ := @behind_name attributes hsound.2.1 '/'
      (by decide) ('>' :: q)
    rw [List.append_assoc, List.singleton_append, hd, endsWord, hd', Bool.not_false]
  have hopening : instructionOpening? (instructionPrefix (render doc)) bodyNames
      ('<' :: (name ++ ((attributes ++ ['/']) ++ '>' :: q))) =
        some ((), (attributes ++ ['/']) ++ '>' :: q) := by
    rw [instructionOpening?, afterInstruction?_append hname, Option.bind_some, if_pos hword]
  have hinside : tagInside? ((attributes ++ ['/']) ++ '>' :: q) = some (attributes ++ ['/'], q) :=
    tagInside?_append (by simp [hend]) q
  rw [hchars, instructionTag?, hopening]
  simp only [Option.bind_eq_bind, Option.bind_some, hinside]
  simp [endsWithSlash]

/-- Blanks and `>` end an end tag. -/
theorem afterEnd?_append {blanks : List Char} (h : ∀ c ∈ blanks, isBlank c = true)
    (s : List Char) : afterEnd? (blanks ++ '>' :: s) = some s := by
  rw [afterEnd?, dropWhile_append_of_head (head?_cons_eq_false (by decide) s),
    List.dropWhile_eq_nil_iff.mpr h, List.nil_append, after?_cons_cons, after?_nil]

/-- An end tag of a body that keeps to its line is seen by the scan. -/
theorem hasForm_of_closes {name blanks : List Char}
    (ht : (k, .closes name blanks) ∈ numbered 0 doc)
    (hline : (lines (render doc))[k]? = some line) (hsound : (Token.closes name blanks).Sound)
    (hname : IsBody doc name = true) (hfeed : '\n' ∉ blanks) :
    hasForm (instructionClosing? (instructionPrefix (render doc)) bodyNames) line = true := by
  have hnot : '\n' ∉ name := not_mem_bodyName hname (by decide) (by decide)
  obtain ⟨p, q, rfl⟩ := token_on_line ht hline (by simp [Token.chars, hnot, hfeed])
    ⟨'<' :: '/' :: (name ++ blanks), by simp [Token.chars]⟩
  refine hasForm_iff.mpr ⟨_, List.suffix_append p _, ?_⟩
  have hchars : (Token.closes name blanks).chars ++ q =
      '<' :: '/' :: (name ++ (blanks ++ '>' :: q)) := by simp [Token.chars]
  have hblanks : ∀ c ∈ blanks, isBlank c = true := fun c hc =>
    isBlank_of_isSpace (List.all_eq_true.mp hsound.2 c hc)
  rw [hchars, instructionClosing?, afterInstruction?_append hname]
  simp [afterEnd?_append hblanks]

/-! ## The depth of the scan -/

/-- How many bodies the scan takes to be open before line `k`. -/
def depthAt (doc : List Token) (k : Nat) : Nat :=
  (stateAt (instructionPrefix (render doc)) (lines (render doc)) k).depth

/-- A line changes the depth only where it does not begin inside a comment. -/
theorem depthAt_succ (hline : (lines (render doc))[k]? = some line) :
    depthAt doc (k + 1) = if flagAt (render doc) k then depthAt doc k
      else depthAfter (instructionPrefix (render doc)) (depthAt doc k) line := by
  unfold depthAt flagAt
  rw [stateAt_succ hline, scanLine]
  split <;> rfl

/-- A line that does not drift opens a body for the scan only if it opens one, and closes one if it
closes any. -/
theorem depthAfter_le (hdoc : WellFormed doc) (hline : (lines (render doc))[k]? = some line)
    (hflag : flagAt (render doc) k = false) (hdrift : ¬ Drifts doc k) (depth : Nat) :
    depthAfter (instructionPrefix (render doc)) depth line ≤
      (depth + if 0 < begunOn (Token.opening (IsBody doc)) doc k then 1 else 0) -
        if 0 < begunOn (Token.closing (IsBody doc)) doc k then 1 else 0 := by
  have hsound : ∀ t, (k, t) ∈ numbered 0 doc → t.Sound := by
    intro t ht
    obtain ⟨ps, qs, hps, -⟩ := mem_numbered.mp ht
    exact hdoc.1 t (hps ▸ List.mem_append_right ps List.mem_cons_self)
  have hopened : (hasForm (instructionOpening? (instructionPrefix (render doc)) bodyNames) line &&
      !hasForm (instructionTag? (instructionPrefix (render doc)) bodyNames true) line) = true →
      0 < begunOn (Token.opening (IsBody doc)) doc k := by
    intro h
    rw [Bool.and_eq_true, Bool.not_eq_true'] at h
    obtain ⟨name, attributes, hname, ht | ht⟩ := tag_of_opening hdoc hline hflag hdrift h.1
    · exact begunOn_pos.mpr ⟨_, ht, hname⟩
    · -- An element without content either drifts or hides what stands on its line.
      exfalso
      by_cases hlayout : '\n' ∈ attributes ∨ '>' ∈ attributes
      · exact hdrift (.split name attributes ht hname hflag hlayout)
      · rw [not_or] at hlayout
        have hform := hasForm_of_empty ht hline (hsound _ ht) hname hlayout.1 hlayout.2
        exact Bool.false_ne_true (h.2.symm.trans hform)
  have hclosed : 0 < begunOn (Token.closing (IsBody doc)) doc k →
      hasForm (instructionClosing? (instructionPrefix (render doc)) bodyNames) line = true := by
    intro h
    obtain ⟨t, ht, hbody⟩ := begunOn_pos.mp h
    cases t with
    | closes name blanks =>
      by_cases hfeed : '\n' ∈ blanks
      · exact absurd (.missed name blanks ht hbody (Or.inr hfeed)) hdrift
      · exact hasForm_of_closes ht hline (hsound _ ht) hbody hfeed
    | _ => exact absurd hbody (by simp [Token.closing])
  unfold depthAfter
  dsimp only
  refine Nat.le_trans (Nat.sub_le_sub_right (Nat.add_le_add_left ?_ depth) _)
    (Nat.sub_le_sub_left ?_ _)
  · split
    · rename_i h
      rw [if_pos (hopened h)]
    · exact Nat.zero_le _
  · split
    · rename_i h
      rw [if_pos (hclosed h)]
    · exact Nat.zero_le _

/-- As long as no line drifts, the scan takes no more bodies to be open than are. -/
theorem depthAt_le (hdoc : WellFormed doc) (hk : k < (lines (render doc)).length)
    (hdrift : ∀ j < k, ¬ Drifts doc j) :
    depthAt doc k + begunBefore (Token.closing (IsBody doc)) doc k ≤
      begunBefore (Token.opening (IsBody doc)) doc k := by
  induction k with
  | zero =>
    rw [begunBefore_zero, begunBefore_zero]
    exact Nat.le_refl 0
  | succ k ih =>
    have ih := ih (by omega) fun j hj => hdrift j (by omega)
    have hthis := hdrift k (Nat.lt_succ_self k)
    have hbalance := hdoc.closing_le_opening (IsBody doc) (k + 1)
    obtain ⟨line, hline⟩ : ∃ line, (lines (render doc))[k]? = some line :=
      ⟨_, List.getElem?_eq_getElem (by omega)⟩
    rw [depthAt_succ hline]
    rw [begunBefore_succ, begunBefore_succ] at hbalance ⊢
    cases hflag : flagAt (render doc) k with
    | true =>
      -- The line is passed over, and closes no body.
      have hnone : begunOn (Token.closing (IsBody doc)) doc k = 0 := by
        by_contra h
        obtain ⟨t, ht, hbody⟩ := begunOn_pos.mp (Nat.pos_of_ne_zero h)
        cases t with
        | closes name blanks => exact hthis (.missed name blanks ht hbody (Or.inl hflag))
        | _ => exact absurd hbody (by simp [Token.closing])
      rw [if_pos rfl]
      omega
    | false =>
      have hstep := depthAfter_le hdoc hline hflag hthis (depthAt doc k)
      have hcrowded : ¬ (1 < begunOn (Token.closing (IsBody doc)) doc k ∧
          begunOn (Token.opening (IsBody doc)) doc k <
            begunOn (Token.closing (IsBody doc)) doc k) := fun h => hthis (.crowded h.1 h.2)
      rw [if_neg Bool.false_ne_true]
      -- Where the depth is at its floor, the nesting of the document itself gives the bound.
      split_ifs at hstep <;> omega

end

/-! ## Elements that are marked -/

/-- Line `n` begins, behind blanks, with a tag that opens an element, and the element lies in a body:
behind the tokens before the tag some body is open. -/
def InBody (doc : List Token) (n : Nat) : Prop :=
  ∃ ps t qs stack indent, doc = ps ++ t :: qs ∧
    (∃ name attributes, t = .opens name attributes ∨ t = .empty name attributes) ∧
    render ps = textBefore n (render doc) ++ indent ∧ (∀ c ∈ indent, isBlank c = true) ∧
    elementsOpen [] ps = some stack ∧ ∃ name ∈ stack, IsBody doc name = true

/-- How the scan can be misled about line `n`: it or a line before it drifts; a body is opened on the
line itself, and none is closed there; the line begins inside an aside that is no comment; it begins
inside a comment that the flag overlooks; or an aside before it conceals the start of a section. -/
inductive Misled (doc : List Token) (n : Nat) : Prop where
  | drifts (k : Nat) (hk : k ≤ n) (h : Drifts doc k)
  | trailing (hopening : 0 < begunOn (Token.opening (IsBody doc)) doc n)
      (hclosing : begunOn (Token.closing (IsBody doc)) doc n = 0)
  | inside (i : Nat) (kind : AsideKind) (inside : List Char) (hkind : kind ≠ .unparsed .comment)
      (ht : (i, .aside kind inside) ∈ numbered 0 doc) (hi : i < n)
      (hn : n ≤ i + (Token.aside kind inside).chars.count '\n')
  | overlooked (part : List Char)
      (hplace : placeAfter (textBefore n (render doc)) = ⟨some .comment, part⟩)
      (h : Overlooked (render doc) n part)
  | concealed (i : Nat) (t : Token) (ht : (i, t) ∈ numbered 0 doc) (hi : i < n) (h : t.Conceals)

/-- The line of a literal element begins, behind blanks, with `<` and the beginning of a name. -/
theorem literal?_start {xsl line : List Char} {mark : Literal} (h : literal? xsl line = some mark) :
    ∃ indent c s, line = indent ++ '<' :: c :: s ∧ (∀ d ∈ indent, isBlank d = true) ∧
      isNameStart c = true := by
  unfold literal? at h
  split at h
  · rename_i s hs
    split at h
    · exact absurd h (by simp)
    · obtain ⟨⟨name, rest⟩, hname, -⟩ := Option.bind_eq_some_iff.mp h
      obtain ⟨⟨first, t⟩, hfirst, -⟩ := Option.bind_eq_some_iff.mp hname
      cases s with
      | nil => exact absurd hfirst (by simp [literalPart?, word?])
      | cons c s =>
        rw [literalPart?, word?] at hfirst
        split at hfirst
        · rename_i hstart
          refine ⟨line.takeWhile isBlank, c, s, ?_, fun d hd => List.mem_takeWhile_imp hd, hstart⟩
          rw [← hs, List.takeWhile_append_dropWhile]
        · exact absurd hfirst (by simp)
  · exact absurd h (by simp)

/-- An aside begins with `<` and a character that begins no name. -/
theorem aside_start (kind : AsideKind) (inside : List Char) :
    ∃ c s, (Token.aside kind inside).chars = '<' :: c :: s ∧ isNameStart c = false := by
  cases kind with
  | unparsed kind =>
    cases kind with
    | comment => exact ⟨'!', _, rfl, by decide⟩
    | cdata => exact ⟨'!', _, rfl, by decide⟩
  | instruction => exact ⟨'?', _, rfl, by decide⟩
  | declaration => exact ⟨'!', _, rfl, by decide⟩

section

variable {ps qs : List Token} {n : Nat} {indent : List Char}

/-- What the tokens before line `n` and blanks on it leave of a row that begins on the line stands in
these blanks. -/
theorem indent_of_count {u a v : List Char} (hn : u.count '\n' = n)
    (h : textBefore n (u ++ v) ++ indent = u ++ a) : ∃ p, indent = p ++ a := by
  obtain ⟨p, hp, -⟩ := eq_textBefore_append u v
  rw [hn] at hp
  refine ⟨p, List.append_cancel_left (h.trans ?_)⟩
  conv_lhs => rw [hp]
  rw [List.append_assoc]

/-- A section that begins on an earlier line and is open where a line begins has its start and a part
of its text before that line. -/
theorem section_before_line {content u a v inside : List Char} {kind : SectionKind}
    (hn : n < (lines content).length) (hu : u.count '\n' < n)
    (hbefore : textBefore n content ++ indent = u ++ a)
    (hchars : kind.start ++ (inside ++ kind.stop) = a ++ v) :
    ∃ part, textBefore n content = u ++ (kind.start ++ part) ∧ part <+: inside := by
  have hfeed : '\n' ∉ kind.start ∧ '\n' ∉ kind.stop := by cases kind <;> decide
  obtain ⟨x, htext, rfl⟩ : ∃ x, textBefore n content = u ++ x ∧ a = x ++ indent := by
    rcases List.append_eq_append_iff.mp hbefore with ⟨y, rfl, -⟩ | ⟨x, htext, ha⟩
    · rw [List.count_append, count_textBefore hn] at hu
      omega
    · exact ⟨x, htext, ha⟩
  have hcount : (u ++ x).count '\n' = n := by rw [← htext, count_textBefore hn]
  -- What stands there of the section ends with the line feed before the line.
  obtain ⟨y, rfl⟩ : ∃ y, x = y ++ ['\n'] := by
    rcases List.eq_nil_or_concat x with rfl | ⟨y, c, rfl⟩
    · rw [List.append_nil] at hcount
      omega
    · rcases textBefore_eq n content hn with hnil | ⟨w, hw⟩
      · rw [hnil] at htext
        exact absurd htext (by simp)
      · rw [hw, List.concat_eq_append, ← List.append_assoc] at htext
        exact ⟨y, by rw [List.concat_eq_append, (List.append_inj' htext rfl).2]⟩
  have hsplit : y ++ '\n' :: (indent ++ v) = kind.start ++ (inside ++ kind.stop) := by
    rw [hchars]
    simp
  obtain ⟨z, rfl, hz⟩ := append_cons_eq_append hfeed.1 hsplit
  refine ⟨z ++ ['\n'], by rw [htext, List.append_assoc], ?_⟩
  have hz : inside ++ kind.stop = (z ++ ['\n']) ++ (indent ++ v) := by rw [hz]; simp
  rcases List.append_eq_append_iff.mp hz with ⟨w, hw, hstop⟩ | ⟨w, rfl, -⟩
  · rcases List.eq_nil_or_concat w with rfl | ⟨w, c, rfl⟩
    · exact ⟨[], by rw [hw, List.append_nil, List.append_nil]⟩
    · -- The line feed would stand in the stop.
      rw [List.concat_eq_append, ← List.append_assoc] at hw
      have hc : '\n' = c := (List.cons.inj (List.append_inj' hw rfl).2).1
      exact absurd (show '\n' ∈ kind.stop by rw [hstop, hc]; simp) hfeed.2
  · exact ⟨w, rfl⟩

/-- The end tags before a tag that begins on line `n` behind blanks begin before this line. -/
theorem countP_closing_le (p : List Char → Bool) {t : Token}
    (hbefore : textBefore n (render (ps ++ t :: qs)) ++ indent = render ps)
    (hindent : ∀ c ∈ indent, isBlank c = true) (hn : (render ps).count '\n' = n) :
    ps.countP (Token.closing p) ≤ begunBefore (Token.closing p) (ps ++ t :: qs) n := by
  have hline : ∀ x ∈ numbered 0 ps, Token.closing p x.2 = true → x.1 < n := by
    rintro ⟨k, x⟩ hx hclosing
    obtain ⟨rs, ss, rfl, hk⟩ := mem_numbered.mp hx
    have hle : k ≤ n := by
      rw [← hn, ← hk, render_append, List.count_append]
      exact Nat.le_add_right _ _
    refine Nat.lt_of_le_of_ne hle fun hkn => ?_
    -- An end tag on the line would stand among the blanks.
    obtain ⟨q, rfl⟩ := @indent_of_count n indent (render rs) (x.chars ++ render ss)
      (x.chars ++ (render ss ++ render (t :: qs))) (hk.trans hkn) (by
        simpa [List.append_assoc] using hbefore)
    cases x with
    | closes name blanks =>
      have hblank := hindent '<' (by simp [Token.chars])
      exact absurd hblank (by decide)
    | _ => exact absurd hclosing (by simp [Token.closing])
  calc ps.countP (Token.closing p)
      = (numbered 0 ps).countP (Token.closing p ∘ Prod.snd) := by
        rw [← List.countP_map, map_snd_numbered]
    _ ≤ (numbered 0 ps).countP fun x => decide (x.1 < n) && Token.closing p x.2 := by
        refine List.countP_mono_left fun x hx hclosing => ?_
        rw [Bool.and_eq_true, decide_eq_true_eq]
        exact ⟨hline x hx hclosing, hclosing⟩
    _ ≤ begunBefore (Token.closing p) (ps ++ t :: qs) n := by
        rw [begunBefore, numbered_append, List.countP_append]
        exact Nat.le_add_right _ _

/-- The start tags that begin before line `n` stand before every token that begins on it. -/
theorem begunBefore_le_countP (p : Token → Bool) (t : Token) (hn : (render ps).count '\n' = n) :
    begunBefore p (ps ++ t :: qs) n ≤ ps.countP p := by
  have hbehind : (numbered (0 + (render ps).count '\n') (t :: qs)).countP
      (fun x => decide (x.1 < n) && p x.2) = 0 := by
    rw [List.countP_eq_zero]
    rintro ⟨k, x⟩ hx
    have hle := le_of_mem_numbered hx
    rw [Bool.and_eq_true, decide_eq_true_eq]
    rintro ⟨hlt, -⟩
    dsimp only at hlt
    omega
  calc begunBefore p (ps ++ t :: qs) n
      = (numbered 0 ps).countP fun x => decide (x.1 < n) && p x.2 := by
        rw [begunBefore, numbered_append, List.countP_append, hbehind, Nat.add_zero]
    _ ≤ (numbered 0 ps).countP (p ∘ Prod.snd) :=
        List.countP_mono_left fun x _ h => (Bool.and_eq_true _ _ ▸ h).2
    _ = ps.countP p := by rw [← List.countP_map, map_snd_numbered]

end

/-- Before a line on which the scan takes a body to be open, and about which it is not misled, more
bodies are opened than closed. -/
theorem closing_lt_opening {doc : List Token} {n : Nat} {line : List Char} (hdoc : WellFormed doc)
    (hline : (lines (render doc))[n]? = some line) (hflag : flagAt (render doc) n = false)
    (hmisled : ¬ Misled doc n)
    (hdepth : 0 < depthAfter (instructionPrefix (render doc)) (depthAt doc n) line) :
    begunBefore (Token.closing (IsBody doc)) doc n <
      begunBefore (Token.opening (IsBody doc)) doc n := by
  have hn : n < (lines (render doc)).length := (List.getElem?_eq_some_iff.mp hline).1
  have hle := depthAt_le hdoc hn fun j hj hdrift => hmisled (.drifts j (Nat.le_of_lt hj) hdrift)
  have hstep := depthAfter_le hdoc hline hflag
    (fun hdrift => hmisled (.drifts n (Nat.le_refl n) hdrift)) (depthAt doc n)
  have htrailing : ¬ (0 < begunOn (Token.opening (IsBody doc)) doc n ∧
      begunOn (Token.closing (IsBody doc)) doc n = 0) := fun h => hmisled (.trailing h.1 h.2)
  -- If the line itself opens a body it closes one too, so that the body was open before it.
  split_ifs at hstep <;> omega

/-- About a line that begins inside an aside and is not passed over the scan is misled. -/
theorem misled_of_aside {ps qs : List Token} {kind : AsideKind}
    {inside line indent a b : List Char} {n : Nat}
    (hdoc : WellFormed (ps ++ .aside kind inside :: qs))
    (hline : (lines (render (ps ++ .aside kind inside :: qs)))[n]? = some line)
    (hflag : flagAt (render (ps ++ .aside kind inside :: qs)) n = false)
    (hbefore : textBefore n (render (ps ++ .aside kind inside :: qs)) ++ indent = render ps ++ a)
    (hchars : (Token.aside kind inside).chars = a ++ b) (hi : (render ps).count '\n' < n)
    (hn : n ≤ (render ps).count '\n' + (Token.aside kind inside).chars.count '\n') :
    Misled (ps ++ .aside kind inside :: qs) n := by
  have hlen := (List.getElem?_eq_some_iff.mp hline).1
  by_cases hkind : kind = .unparsed .comment
  · subst hkind
    by_cases hclear : ∀ t ∈ ps, ¬ t.Conceals
    · -- The scan from the left stands in the comment, so that the flag overlooks it.
      have hfree : ¬ SectionKind.comment.stop <:+: inside :=
        occurs_eq_false.mp (hdoc.1 (.aside (.unparsed .comment) inside) (by simp))
      have hcomment : SectionKind.comment.start ++ (inside ++ SectionKind.comment.stop) = a ++ b :=
        hchars
      obtain ⟨part, htext, hpart⟩ := section_before_line hlen hi hbefore hcomment
      obtain ⟨since, hplace, hsettled⟩ := placeAfter_render (fun t ht => hdoc.1 t (by simp [ht])) hclear
      have hopen : placeAfter (render ps ++ (SectionKind.comment.start ++ part)) =
          ⟨some .comment, part⟩ :=
        placeAfter_inside hplace hsettled fun hstop => hfree (hstop.trans hpart.isInfix)
      rw [← htext] at hopen
      exact .overlooked part hopen (overlooked_of_flagAt hlen hflag hopen)
    · push Not at hclear
      obtain ⟨t, ht, hconceals⟩ := hclear
      obtain ⟨rs, ss, rfl⟩ := List.append_of_mem ht
      refine .concealed ((render rs).count '\n') t
        (mem_numbered.mpr ⟨rs, ss ++ .aside (.unparsed .comment) inside :: qs, by simp, rfl⟩) ?_
        hconceals
      rw [render_append, List.count_append] at hi
      omega
  · exact .inside _ kind inside hkind (mem_numbered.mpr ⟨ps, qs, rfl, rfl⟩) hi hn

section

variable {ps qs : List Token} {t : Token} {n : Nat} {indent a b : List Char}

/-- A token with `<` and the beginning of a name is a tag that opens an element. -/
theorem start_of_name (ht : t.Sound) {c : Char} {s u : List Char} (hchars : t.chars = '<' :: b)
    (hbehind : b ++ u = c :: s) (hc : isNameStart c = true) :
    ∃ name attributes, t = .opens name attributes ∨ t = .empty name attributes := by
  cases t with
  | text chars =>
    have hlt : chars = '<' :: b := hchars
    exact absurd (hlt ▸ List.mem_cons_self) ht
  | aside kind inside =>
    obtain ⟨d, v, hstart, hd⟩ := aside_start kind inside
    obtain rfl := (List.cons.inj (hstart.symm.trans hchars)).2
    obtain ⟨rfl, -⟩ := List.cons.inj hbehind
    exact absurd (hd.symm.trans hc) Bool.false_ne_true
  | opens name attributes => exact ⟨name, attributes, Or.inl rfl⟩
  | empty name attributes => exact ⟨name, attributes, Or.inr rfl⟩
  | closes name blanks =>
    obtain rfl := (List.cons.inj hchars).2
    obtain ⟨rfl, -⟩ := List.cons.inj hbehind
    exact absurd hc (by decide)

/-- What begins with a `<` and reaches over the blanks before an element begins on an earlier line. -/
theorem count_lt_of_inside {u v : List Char} (hindent : ∀ c ∈ indent, isBlank c = true)
    (hbefore : textBefore n (u ++ v) ++ indent = u ++ '<' :: a)
    (hcount : u.count '\n' + ('<' :: a).count '\n' = n) : u.count '\n' < n := by
  by_contra h
  obtain ⟨p, rfl⟩ := indent_of_count (by omega) hbefore
  exact absurd (hindent '<' (by simp)) (by decide)

/-- Before a tag on a line on which the scan takes a body to be open, and about which it is not
misled, a body is open. -/
theorem exists_open_body {line : List Char} (hdoc : WellFormed (ps ++ t :: qs))
    (hline : (lines (render (ps ++ t :: qs)))[n]? = some line)
    (hflag : flagAt (render (ps ++ t :: qs)) n = false) (hmisled : ¬ Misled (ps ++ t :: qs) n)
    (hdepth : 0 < depthAfter (instructionPrefix (render (ps ++ t :: qs)))
      (depthAt (ps ++ t :: qs) n) line)
    (hbefore : textBefore n (render (ps ++ t :: qs)) ++ indent = render ps)
    (hindent : ∀ c ∈ indent, isBlank c = true) (hn : (render ps).count '\n' = n) :
    ∃ stack, elementsOpen [] ps = some stack ∧
      ∃ name ∈ stack, IsBody (ps ++ t :: qs) name = true := by
  obtain ⟨stack, hstack, -⟩ := Option.bind_eq_some_iff.mp
    ((elementsOpen_append [] ps (t :: qs)).symm.trans hdoc.2)
  have hbalance := countP_elementsOpen (IsBody (ps ++ t :: qs)) hstack
  have hclosing := countP_closing_le (IsBody (ps ++ t :: qs)) hbefore hindent hn
  have hopening := @begunBefore_le_countP ps qs n (Token.opening (IsBody (ps ++ t :: qs))) t hn
  have hlt := closing_lt_opening hdoc hline hflag hmisled hdepth
  have hopen : 0 < stack.countP (IsBody (ps ++ t :: qs)) := by
    rw [List.countP_nil] at hbalance
    omega
  exact ⟨stack, hstack, List.countP_pos_iff.mp hopen⟩

end

/-- In a well-formed document a line is inserted only before an element that lies in a body, unless
the scan is misled about it. -/
theorem inBody_of_inserts {sentinel file : String} {doc : List Token} {n : Nat}
    (hdoc : WellFormed doc) (h : Inserts sentinel file (render doc) n) :
    InBody doc n ∨ Misled doc n := by
  obtain ⟨line, mark, hline, hflag, hdepth, hmark⟩ := h.line
  obtain ⟨indent, c, s, rfl, hindent, hc⟩ := literal?_start hmark
  obtain ⟨ps, t, qs, a, b, rest, rfl, hchars, hbefore, hbehind, -, hcount⟩ := token_of_lt hline
  have hsound : t.Sound := hdoc.1 t (by simp)
  by_cases hmisled : Misled (ps ++ t :: qs) n
  · exact Or.inr hmisled
  refine Or.inl ?_
  cases a with
  | nil =>
    -- The token begins with the element that the line opens.
    have hn : (render ps).count '\n' = n := by simpa using hcount
    rw [List.append_nil] at hbefore
    obtain ⟨stack, hstack, hopen⟩ :=
      exists_open_body hdoc hline hflag hmisled hdepth hbefore hindent hn
    exact ⟨ps, t, qs, stack, indent, rfl, start_of_name hsound hchars hbehind.symm hc,
      hbefore.symm, hindent, hstack, hopen⟩
  | cons e a =>
    -- The token began before the element, so that it is an aside around it.
    exfalso
    rcases Token.lt_cases hsound hchars with ⟨kind, inside, rfl⟩ | ⟨hnil, -⟩
    · obtain ⟨d, u, hstart, -⟩ := aside_start kind inside
      obtain rfl : '<' = e := (List.cons.inj (hstart.symm.trans hchars)).1
      have hi : (render ps).count '\n' < n :=
        @count_lt_of_inside n indent a (render ps) ((Token.aside kind inside).chars ++ render qs)
          hindent (by simpa using hbefore) hcount
      have hn : n ≤ (render ps).count '\n' + (Token.aside kind inside).chars.count '\n' := by
        rw [hchars, List.count_append, ← hcount]
        omega
      exact hmisled (misled_of_aside hdoc hline hflag hbefore hchars hi hn)
    · exact absurd hnil (by simp)

/-- A stylesheet with a template without content whose tag spans two lines, and an element behind it.
-/
def splitTemplate : List Token :=
  [.opens "xsl:stylesheet".toList [], .text ['\n'], .empty "xsl:template".toList ['\n'],
    .text ['\n'], .empty ['b'] [], .closes "xsl:stylesheet".toList []]

/-- Before the element a line is inserted, though no body is ever open: the scan is misled. -/
theorem inBody_of_inserts_splitTemplate :
    WellFormed splitTemplate ∧ Inserts "TRACE" "a.xsl" (render splitTemplate) 3 ∧
      ¬ InBody splitTemplate 3 ∧ Misled splitTemplate 3 := by
  have hdoc : WellFormed splitTemplate := ⟨List.all_iff_forall_prop.mp (by decide), rfl⟩
  have hinserts : Inserts "TRACE" "a.xsl" (render splitTemplate) 3 := ⟨_, _, rfl, rfl, by decide⟩
  have hnone : (List.range 7).all (fun m => (elementsOpen [] (splitTemplate.take m)).all
      fun stack => stack.all fun name => !IsBody splitTemplate name) = true := by rfl
  have houtside : ¬ InBody splitTemplate 3 := by
    rintro ⟨ps, t, qs, stack, -, htext, -, -, -, hstack, name, hname, hbody⟩
    have hps : splitTemplate.take ps.length = ps := by rw [htext, List.take_left]
    have hlength : ps.length < 7 := by
      have hdocument : ps.length + (t :: qs).length = 6 := by
        rw [← List.length_append, ← htext]
        rfl
      omega
    have hall := List.all_eq_true.mp hnone ps.length (List.mem_range.mpr hlength)
    rw [hps, hstack, Option.all_some] at hall
    have hfalse := List.all_eq_true.mp hall name hname
    rw [hbody] at hfalse
    exact absurd hfalse (by decide)
  exact ⟨hdoc, hinserts, houtside, (inBody_of_inserts hdoc hinserts).resolve_left houtside⟩

end StylesheetTrace.Stylesheet
