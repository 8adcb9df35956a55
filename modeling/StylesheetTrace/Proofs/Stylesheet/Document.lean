import Mathlib.Data.List.Count
import StylesheetTrace.Proofs.Stylesheet.Section

/-!
# Documents read tag by tag

A document is a row of tokens: tags, the texts between them, and asides, which are comments, CDATA
sections, processing instructions and document type declarations. Its tags may span several lines,
several may share one, and asides may hold what looks like tags. The reading is the reference for
where the elements of a stylesheet stand: `elementsOpen` says which elements are open behind a row
of tokens, and `numbered` on which line each token begins.
-/

namespace StylesheetTrace.Stylesheet

open StylesheetTrace.Text

/-! ## Tokens -/

/-- The stretches of a document that hold no tags, whatever they look like. -/
inductive AsideKind where
  | unparsed (kind : SectionKind)
  | instruction
  | declaration
  deriving Repr, DecidableEq

namespace AsideKind

/-- The word that begins an aside. -/
def start : AsideKind → List Char
  | unparsed kind => kind.start
  | instruction => "<?".toList
  | declaration => "<!DOCTYPE".toList

/-- The word that ends an aside. -/
def stop : AsideKind → List Char
  | unparsed kind => kind.stop
  | instruction => "?>".toList
  | declaration => ">".toList

end AsideKind

/-- A piece of a document: a text, an aside, or a tag that opens an element, is an element without
content, or closes an element. -/
inductive Token where
  | text (chars : List Char)
  | aside (kind : AsideKind) (inside : List Char)
  | opens (name attributes : List Char)
  | empty (name attributes : List Char)
  | closes (name blanks : List Char)
  deriving Repr, DecidableEq

/-- The characters of a token. -/
def Token.chars : Token → List Char
  | text chars => chars
  | aside kind inside => kind.start ++ (inside ++ kind.stop)
  | opens name attributes => '<' :: (name ++ (attributes ++ ['>']))
  | empty name attributes => '<' :: (name ++ (attributes ++ ['/', '>']))
  | closes name blanks => '<' :: '/' :: (name ++ (blanks ++ ['>']))

/-- The text of a document. -/
def render (doc : List Token) : List Char :=
  doc.flatMap Token.chars

/-! ## Well-formed documents -/

/-- The blanks of markup. -/
def isSpace (c : Char) : Bool :=
  c == ' ' || c == '\t' || c == '\r' || c == '\n'

/-- The characters of a name: no blank and none of those that markup is made of. -/
def isTagNameChar (c : Char) : Bool :=
  !isSpace c && !"<>/=\"'&!?".toList.contains c

/-- A name holds characters of a name, one at least. -/
def IsName (name : List Char) : Prop :=
  name ≠ [] ∧ name.all isTagNameChar = true

/-- Every quote that is opened is closed; outside quotes stand no `>` and no `/`, and `<` stands
nowhere. The quote that is open at first is `quote`. -/
def quotesClosed : Option Char → List Char → Bool
  | none, [] => true
  | some _, [] => false
  | none, c :: s =>
    if c == '"' || c == '\'' then quotesClosed (some c) s
    else c != '<' && c != '>' && c != '/' && quotesClosed none s
  | some quote, c :: s => c != '<' && quotesClosed (if c == quote then none else some quote) s

/-- The attributes of a tag: they stand behind a blank, and their values in quotes. -/
def IsAttributes (attributes : List Char) : Prop :=
  attributes.head?.all isSpace = true ∧ quotesClosed none attributes = true

/-- A token is read as what it is: a text holds no markup, an aside ends at its first stop, and names
and attributes end where they are taken to end. A document type declaration may hold declarations
of its own, so that its end is left open. -/
def Token.Sound : Token → Prop
  | text chars => '<' ∉ chars
  | aside .declaration _ => True
  | aside kind inside => occurs kind.stop inside = false
  | opens name attributes => IsName name ∧ IsAttributes attributes
  | empty name attributes => IsName name ∧ IsAttributes attributes
  | closes name blanks => IsName name ∧ blanks.all isSpace = true

/-- The names of the elements that are open behind a row of tokens, the innermost first, when those
in `stack` are open before it; none when an end tag closes another element than the innermost. -/
def elementsOpen : List (List Char) → List Token → Option (List (List Char))
  | stack, [] => some stack
  | stack, .opens name _ :: doc => elementsOpen (name :: stack) doc
  | top :: stack, .closes name _ :: doc => if top = name then elementsOpen stack doc else none
  | [], .closes _ _ :: _ => none
  | stack, .text _ :: doc => elementsOpen stack doc
  | stack, .aside _ _ :: doc => elementsOpen stack doc
  | stack, .empty _ _ :: doc => elementsOpen stack doc

/-- The tokens are sound, and each tag that opens an element is closed by one with its name. -/
def WellFormed (doc : List Token) : Prop :=
  (∀ t ∈ doc, t.Sound) ∧ elementsOpen [] doc = some []

instance (name : List Char) : Decidable (IsName name) :=
  inferInstanceAs (Decidable (name ≠ [] ∧ name.all isTagNameChar = true))

instance (attributes : List Char) : Decidable (IsAttributes attributes) :=
  inferInstanceAs (Decidable (attributes.head?.all isSpace = true ∧
    quotesClosed none attributes = true))

instance : DecidablePred Token.Sound
  | .text chars => inferInstanceAs (Decidable ('<' ∉ chars))
  | .aside (.unparsed kind) inside => inferInstanceAs (Decidable (occurs kind.stop inside = false))
  | .aside .instruction inside =>
    inferInstanceAs (Decidable (occurs AsideKind.instruction.stop inside = false))
  | .aside .declaration _ => inferInstanceAs (Decidable True)
  | .opens name attributes => inferInstanceAs (Decidable (IsName name ∧ IsAttributes attributes))
  | .empty name attributes => inferInstanceAs (Decidable (IsName name ∧ IsAttributes attributes))
  | .closes name blanks =>
    inferInstanceAs (Decidable (IsName name ∧ blanks.all isSpace = true))

/-! ## Texts of tokens -/

/-- The text of two rows of tokens. -/
@[simp]
theorem render_append (ps qs : List Token) : render (ps ++ qs) = render ps ++ render qs :=
  List.flatMap_append

/-- The text of a row begins with that of its first token. -/
@[simp]
theorem render_cons (t : Token) (doc : List Token) : render (t :: doc) = t.chars ++ render doc :=
  List.flatMap_cons

/-- Each member of texts joined to one belongs to one of them, and stands behind those before it. -/
theorem flatMap_eq_append_cons {α β : Type} {f : α → List β} {xs : List α} {u v : List β} {c : β}
    (h : xs.flatMap f = u ++ c :: v) :
    ∃ ps x qs a b, xs = ps ++ x :: qs ∧ f x = a ++ c :: b ∧ u = ps.flatMap f ++ a ∧
      v = b ++ qs.flatMap f := by
  induction xs generalizing u with
  | nil => exact absurd h (by simp)
  | cons x xs ih =>
    rw [List.flatMap_cons] at h
    rcases List.append_eq_append_iff.mp h with ⟨u', rfl, hrest⟩ | ⟨b, hmembers, hv⟩
    · obtain ⟨ps, x', qs, a, b, rfl, hmembers, rfl, hv⟩ := ih hrest
      exact ⟨x :: ps, x', qs, a, b, rfl, hmembers, by simp, hv⟩
    · cases b with
      | nil =>
        -- The member is the first one behind the text.
        rw [List.append_nil] at hmembers
        obtain ⟨ps, x', qs, a, b, rfl, hmembers', hu, hv⟩ := ih (u := []) hv.symm
        exact ⟨x :: ps, x', qs, a, b, rfl, hmembers',
          by simp [hmembers, List.append_assoc, ← hu], hv⟩
      | cons d b =>
        obtain ⟨rfl, htail⟩ := List.cons.inj hv
        exact ⟨[], x, xs, u, b, rfl, hmembers, rfl, htail⟩

/-- Every character of a document belongs to one of its tokens. -/
theorem render_eq_append_cons {doc : List Token} {u v : List Char} {c : Char}
    (h : render doc = u ++ c :: v) :
    ∃ ps t qs a b, doc = ps ++ t :: qs ∧ t.chars = a ++ c :: b ∧ u = render ps ++ a ∧
      v = b ++ render qs :=
  flatMap_eq_append_cons h

/-- The blanks of markup are blanks. -/
theorem isBlank_of_isSpace {c : Char} (h : isSpace c = true) : isBlank c = true := by
  simp only [isSpace, Bool.or_eq_true, beq_iff_eq] at h
  rcases h with ((rfl | rfl) | rfl) | rfl <;> decide

/-- Where a tag goes on behind its name stands a blank of markup, or what follows its attributes. -/
theorem exists_cons_append_attributes {attributes : List Char}
    (h : attributes.head?.all isSpace = true) (c : Char) (s : List Char) :
    ∃ d t, attributes ++ c :: s = d :: t ∧ (isSpace d = true ∨ d = c) := by
  cases attributes with
  | nil => exact ⟨c, s, rfl, Or.inr rfl⟩
  | cons d t => exact ⟨d, t ++ c :: s, rfl, Or.inl h⟩

/-- No `<` stands in attributes. -/
theorem lt_not_mem_of_quotesClosed {s : List Char} {quote : Option Char}
    (h : quotesClosed quote s = true) : '<' ∉ s := by
  induction s generalizing quote with
  | nil => exact List.not_mem_nil
  | cons c s ih =>
    rw [List.mem_cons, not_or]
    cases quote with
    | none =>
      unfold quotesClosed at h
      split at h
      · rename_i hquote
        refine ⟨?_, ih h⟩
        rintro rfl
        exact absurd hquote (by decide)
      · simp only [Bool.and_eq_true, bne_iff_ne] at h
        exact ⟨h.1.1.1.symm, ih h.2⟩
    | some quote =>
      unfold quotesClosed at h
      simp only [Bool.and_eq_true, bne_iff_ne] at h
      exact ⟨h.1.symm, ih h.2⟩

/-- No `<` stands in a name. -/
theorem IsName.lt_not_mem {name : List Char} (h : IsName name) : '<' ∉ name :=
  fun hmem => absurd (List.all_eq_true.mp h.2 '<' hmem) (by decide)

/-- An aside ends with the last character of its stop. -/
theorem aside_chars (kind : AsideKind) (inside : List Char) :
    ∃ s, (Token.aside kind inside).chars = s ++ ['>'] := by
  have hstop : ∃ s, kind.stop = s ++ ['>'] := by
    cases kind with
    | unparsed kind =>
      cases kind with
      | comment => exact ⟨['-', '-'], rfl⟩
      | cdata => exact ⟨[']', ']'], rfl⟩
    | instruction => exact ⟨['?'], rfl⟩
    | declaration => exact ⟨[], rfl⟩
  obtain ⟨s, hs⟩ := hstop
  exact ⟨kind.start ++ (inside ++ s), by simp [Token.chars, hs]⟩

/-- A name begins with a character that begins no aside. -/
theorem IsName.eq_cons {name : List Char} (h : IsName name) : ∃ c s, name = c :: s ∧ c ≠ '!' := by
  cases name with
  | nil => exact absurd rfl h.1
  | cons c s =>
    refine ⟨c, s, rfl, ?_⟩
    rintro rfl
    exact absurd (List.all_eq_true.mp h.2 '!' List.mem_cons_self) (by decide)

/-- A `<` begins a tag, or stands in an aside. -/
theorem Token.lt_cases {t : Token} (ht : t.Sound) {a b : List Char} (h : t.chars = a ++ '<' :: b) :
    (∃ kind inside, t = .aside kind inside) ∨
      a = [] ∧ ((∃ name attributes, t = .opens name attributes) ∨
        (∃ name attributes, t = .empty name attributes) ∨ ∃ name blanks, t = .closes name blanks) := by
  -- Behind the first character of a tag no `<` stands, so that it is this character.
  have hhead : ∀ s, '<' ∉ s → '<' :: s = a ++ '<' :: b → a = [] := by
    intro s hs heq
    cases a with
    | nil => rfl
    | cons c a => exact absurd ((List.cons.inj heq).2 ▸ List.mem_append_right a List.mem_cons_self) hs
  cases t with
  | text chars =>
    have hchars : chars = a ++ '<' :: b := h
    exact absurd (hchars ▸ List.mem_append_right a List.mem_cons_self) ht
  | aside kind inside => exact Or.inl ⟨kind, inside, rfl⟩
  | opens name attributes =>
    have hattributes := lt_not_mem_of_quotesClosed ht.2.2
    refine Or.inr ⟨hhead _ ?_ h, Or.inl ⟨name, attributes, rfl⟩⟩
    simp [ht.1.lt_not_mem, hattributes]
  | empty name attributes =>
    have hattributes := lt_not_mem_of_quotesClosed ht.2.2
    refine Or.inr ⟨hhead _ ?_ h, Or.inr (Or.inl ⟨name, attributes, rfl⟩)⟩
    simp [ht.1.lt_not_mem, hattributes]
  | closes name blanks =>
    have hblanks : '<' ∉ blanks :=
      fun hmem => absurd (List.all_eq_true.mp ht.2 '<' hmem) (by decide)
    refine Or.inr ⟨hhead _ ?_ h, Or.inr (Or.inr ⟨name, blanks, rfl⟩)⟩
    simp [ht.1.lt_not_mem, hblanks]

/-! ## Lines of tokens -/

/-- The tokens, each with the line on which it begins; the first one begins on line `i`. -/
def numbered (i : Nat) : List Token → List (Nat × Token)
  | [] => []
  | t :: doc => (i, t) :: numbered (i + t.chars.count '\n') doc

/-- The line on which a row of tokens goes on is counted by the line feeds before it. -/
theorem numbered_append (i : Nat) (ps qs : List Token) :
    numbered i (ps ++ qs) = numbered i ps ++ numbered (i + (render ps).count '\n') qs := by
  induction ps generalizing i with
  | nil => rfl
  | cons t ps ih =>
    rw [List.cons_append, numbered, ih, numbered, render_cons, List.count_append, Nat.add_assoc]
    rfl

/-- The tokens in their order. -/
theorem map_snd_numbered (i : Nat) (doc : List Token) : (numbered i doc).map Prod.snd = doc := by
  induction doc generalizing i with
  | nil => rfl
  | cons t doc ih => rw [numbered, List.map_cons, ih]

/-- A token with its line is one of the document, behind as many line feeds. -/
theorem mem_numbered {k : Nat} {t : Token} {doc : List Token} :
    (k, t) ∈ numbered 0 doc ↔
      ∃ ps qs, doc = ps ++ t :: qs ∧ (render ps).count '\n' = k := by
  constructor
  · have hfrom : ∀ i, (k, t) ∈ numbered i doc →
        ∃ ps qs, doc = ps ++ t :: qs ∧ i + (render ps).count '\n' = k := by
      induction doc with
      | nil => exact fun i h => absurd h List.not_mem_nil
      | cons t' doc ih =>
        intro i h
        rw [numbered, List.mem_cons] at h
        rcases h with h | h
        · obtain ⟨rfl, rfl⟩ := Prod.mk.inj h
          exact ⟨[], doc, rfl, rfl⟩
        · obtain ⟨ps, qs, rfl, hcount⟩ := ih _ h
          refine ⟨t' :: ps, qs, rfl, ?_⟩
          rw [render_cons, List.count_append, ← hcount, Nat.add_assoc]
    intro h
    obtain ⟨ps, qs, hdoc, hcount⟩ := hfrom 0 h
    exact ⟨ps, qs, hdoc, by omega⟩
  · rintro ⟨ps, qs, rfl, rfl⟩
    rw [numbered_append, numbered, Nat.zero_add]
    exact List.mem_append_right _ List.mem_cons_self

/-- No token begins before the line of the first one. -/
theorem le_of_mem_numbered {i k : Nat} {t : Token} {doc : List Token}
    (h : (k, t) ∈ numbered i doc) : i ≤ k := by
  induction doc generalizing i with
  | nil => exact absurd h List.not_mem_nil
  | cons t' doc ih =>
    rw [numbered, List.mem_cons] at h
    rcases h with h | h
    · exact (Prod.mk.inj h).1.ge
    · have := ih h
      omega

/-- The tokens that begin before a line are the first ones. -/
theorem exists_numbered_before (i n : Nat) (doc : List Token) :
    ∃ ps qs, doc = ps ++ qs ∧ (numbered i doc).filter (fun x => decide (x.1 < n)) = numbered i ps := by
  induction doc generalizing i with
  | nil => exact ⟨[], [], rfl, rfl⟩
  | cons t doc ih =>
    by_cases hi : i < n
    · obtain ⟨ps, qs, rfl, hfilter⟩ := ih (i + t.chars.count '\n')
      refine ⟨t :: ps, qs, rfl, ?_⟩
      rw [numbered, List.filter_cons_of_pos (by simpa using hi), hfilter, numbered]
    · refine ⟨[], t :: doc, rfl, ?_⟩
      rw [List.filter_eq_nil_iff.mpr, numbered]
      rintro ⟨k, t'⟩ hmem
      have := le_of_mem_numbered hmem
      simp only [decide_eq_true_eq]
      omega

/-! ## Counting tokens -/

/-- How many tokens in `p` begin on line `n`. -/
def begunOn (p : Token → Bool) (doc : List Token) (n : Nat) : Nat :=
  (numbered 0 doc).countP fun x => decide (x.1 = n) && p x.2

/-- How many tokens in `p` begin before line `n`. -/
def begunBefore (p : Token → Bool) (doc : List Token) (n : Nat) : Nat :=
  (numbered 0 doc).countP fun x => decide (x.1 < n) && p x.2

/-- No token begins before the first line. -/
theorem begunBefore_zero (p : Token → Bool) (doc : List Token) : begunBefore p doc 0 = 0 := by
  simp [begunBefore]

/-- The tokens before a line and those on it are the ones before the next line. -/
theorem begunBefore_succ (p : Token → Bool) (doc : List Token) (n : Nat) :
    begunBefore p doc (n + 1) = begunBefore p doc n + begunOn p doc n := by
  unfold begunBefore begunOn
  induction numbered 0 doc with
  | nil => rfl
  | cons x xs ih =>
    rw [List.countP_cons, List.countP_cons, List.countP_cons, ih]
    simp only [Bool.and_eq_true, decide_eq_true_eq]
    grind

/-- A token in `p` begins on a line exactly when some are counted there. -/
theorem begunOn_pos {p : Token → Bool} {doc : List Token} {n : Nat} :
    0 < begunOn p doc n ↔ ∃ t, (n, t) ∈ numbered 0 doc ∧ p t = true := by
  unfold begunOn
  rw [List.countP_pos_iff]
  constructor
  · rintro ⟨⟨k, t⟩, hmem, h⟩
    simp only [Bool.and_eq_true, decide_eq_true_eq] at h
    obtain ⟨rfl, ht⟩ := h
    exact ⟨t, hmem, ht⟩
  · rintro ⟨t, hmem, ht⟩
    exact ⟨(n, t), hmem, by simp [ht]⟩

/-- The tokens before a line are counted in the beginning of the document that they make up. -/
theorem exists_begunBefore (doc : List Token) (n : Nat) :
    ∃ ps qs, doc = ps ++ qs ∧ ∀ p : Token → Bool, begunBefore p doc n = ps.countP p := by
  obtain ⟨ps, qs, hdoc, hfilter⟩ := exists_numbered_before 0 n doc
  refine ⟨ps, qs, hdoc, fun p => ?_⟩
  calc begunBefore p doc n
      = ((numbered 0 doc).filter fun x => decide (x.1 < n)).countP (p ∘ Prod.snd) := by
        rw [List.countP_filter, begunBefore]
        exact List.countP_congr fun x _ => by rw [Function.comp_apply, Bool.and_comm]
    _ = (numbered 0 ps).countP (p ∘ Prod.snd) := by rw [hfilter]
    _ = ps.countP p := by rw [← List.countP_map, map_snd_numbered]

/-! ## Nesting -/

/-- The elements that are open behind two rows of tokens are those that the second leaves open. -/
theorem elementsOpen_append (stack : List (List Char)) (ps qs : List Token) :
    elementsOpen stack (ps ++ qs) = (elementsOpen stack ps).bind fun s => elementsOpen s qs := by
  fun_induction elementsOpen stack ps with
  | case1 stack => rfl
  | case2 stack name attributes ps ih => exact ih
  | case3 stack name blanks ps ih => rw [List.cons_append, elementsOpen, if_pos rfl, ih]
  | case4 top stack name blanks ps h => rw [List.cons_append, elementsOpen, if_neg h]; rfl
  | case5 => rfl
  | case6 stack chars ps ih => exact ih
  | case7 stack kind inside ps ih => exact ih
  | case8 stack name attributes ps ih => exact ih

/-- The tag opens an element with a name in `p`. -/
def Token.opening (p : List Char → Bool) : Token → Bool
  | opens name _ => p name
  | _ => false

/-- The tag closes an element with a name in `p`. -/
def Token.closing (p : List Char → Bool) : Token → Bool
  | closes name _ => p name
  | _ => false

/-- Of the elements with a name in `p` those are open that were open before or have been opened, and
have not been closed. -/
theorem countP_elementsOpen (p : List Char → Bool) {stack stack' : List (List Char)}
    {doc : List Token} (h : elementsOpen stack doc = some stack') :
    stack'.countP p + doc.countP (Token.closing p) =
      stack.countP p + doc.countP (Token.opening p) := by
  fun_induction elementsOpen stack doc with
  | case1 stack =>
    obtain rfl := Option.some.inj h
    rfl
  | case2 stack name attributes doc ih =>
    have hcount := ih h
    cases hp : p name with
    | true =>
      simp only [Token.opening, Token.closing, List.countP_cons, hp, if_true] at hcount ⊢
      simp only [Bool.false_eq_true, if_false]
      omega
    | false =>
      simp only [Token.opening, Token.closing, List.countP_cons, hp] at hcount ⊢
      exact hcount
  | case3 stack name blanks doc ih =>
    have hcount := ih h
    cases hp : p name with
    | true =>
      simp only [Token.opening, Token.closing, List.countP_cons, hp, if_true] at hcount ⊢
      simp only [Bool.false_eq_true, if_false]
      omega
    | false =>
      simp only [Token.opening, Token.closing, List.countP_cons, hp] at hcount ⊢
      exact hcount
  | case4 top stack name blanks doc hname => exact absurd h (by simp)
  | case5 => exact absurd h (by simp)
  | case6 stack chars doc ih => simpa [Token.opening, Token.closing] using ih h
  | case7 stack kind inside doc ih => simpa [Token.opening, Token.closing] using ih h
  | case8 stack name attributes doc ih => simpa [Token.opening, Token.closing] using ih h

/-- No more elements are closed before a line of a document than are opened there. -/
theorem WellFormed.closing_le_opening {doc : List Token} (h : WellFormed doc)
    (p : List Char → Bool) (n : Nat) :
    begunBefore (Token.closing p) doc n ≤ begunBefore (Token.opening p) doc n := by
  obtain ⟨ps, qs, rfl, hcount⟩ := exists_begunBefore doc n
  have hopen := h.2
  rw [elementsOpen_append, Option.bind_eq_some_iff] at hopen
  obtain ⟨stack, hps, -⟩ := hopen
  have hbalance := countP_elementsOpen p hps
  rw [hcount, hcount]
  simp only [List.countP_nil] at hbalance
  omega

/-! ## Sections of documents -/

/-- A processing instruction or a document type declaration that holds the start of a comment or of
a CDATA section. -/
def Token.Conceals : Token → Prop
  | aside .instruction inside =>
    ∃ kind : SectionKind, kind.start <:+: (aside .instruction inside).chars
  | aside .declaration inside =>
    ∃ kind : SectionKind, kind.start <:+: (aside .declaration inside).chars
  | _ => False

/-- No section starts in the text. -/
def NoStart (s : List Char) : Prop :=
  ∀ kind : SectionKind, ¬ kind.start <:+: s

/-- What was read holds no start, and none that only what follows completes. -/
def Settled (since : List Char) : Prop :=
  ∀ s, NoStart s → NoStart (since ++ s)

/-- Behind a `>` no start is left to be completed. -/
theorem Settled.append_gt {since s : List Char} (h : Settled since) (hs : NoStart (s ++ ['>'])) :
    Settled (since ++ (s ++ ['>'])) := by
  intro t ht kind hstart
  have hgt : '>' ∉ kind.start := by cases kind <;> decide
  have hsplit : since ++ (s ++ ['>']) ++ t = (since ++ s) ++ '>' :: t := by simp
  rw [hsplit] at hstart
  rcases infix_of_infix_append_cons hgt hstart with hbefore | hbehind
  · refine h _ hs kind (hbefore.trans ⟨[], ['>'], by simp⟩)
  · exact ht kind hbehind

/-- A start begins with `<`, so that it does not begin in a text without one. -/
theorem NoStart.append {s t : List Char} (hs : '<' ∉ s) (ht : NoStart t) : NoStart (s ++ t) := by
  rintro kind ⟨u, v, huv⟩
  obtain ⟨w, hw⟩ : ∃ w, kind.start = '<' :: w := by cases kind <;> exact ⟨_, rfl⟩
  have hsuffix : '<' :: (w ++ v) <:+ s ++ t := ⟨u, by rw [← huv, hw]; simp⟩
  obtain ⟨x, hx⟩ := suffix_of_suffix_append hs hsuffix
  exact ht kind ⟨x, v, by rw [← hx, hw]; simp⟩

/-- Behind a text without `<` no start is left to be completed. -/
theorem Settled.append_text {since s : List Char} (h : Settled since) (hs : '<' ∉ s) :
    Settled (since ++ s) := by
  intro t ht
  rw [List.append_assoc]
  exact h _ (ht.append hs)

/-- No start stands in a tag, which goes on behind its `<` with another character. -/
theorem noStart_tag {c : Char} {s : List Char} (hc : c ≠ '!') (hs : '<' ∉ c :: s) :
    NoStart ('<' :: c :: s) := by
  intro kind hstart
  obtain ⟨w, hw⟩ : ∃ w, kind.start = '<' :: '!' :: w := by cases kind <;> exact ⟨_, rfl⟩
  rcases List.infix_cons_iff.mp hstart with hbegins | hlater
  · rw [hw, List.cons_prefix_cons, List.cons_prefix_cons] at hbegins
    exact hc hbegins.2.1.symm
  · exact hs (hlater.subset (hw ▸ List.mem_cons_self))

/-- A start that is read outside sections opens its section. -/
theorem placeAfter_open {text since : List Char} (h : placeAfter text = ⟨none, since⟩)
    (hs : Settled since) (kind : SectionKind) :
    placeAfter (text ++ kind.start) = ⟨some kind, []⟩ := by
  cases kind with
  | comment =>
    have hstart : SectionKind.comment.start = ['<', '!', '-'] ++ ['-'] := rfl
    have hplace : placeAfter (text ++ ['<', '!', '-']) = ⟨none, since ++ ['<', '!', '-']⟩ :=
      placeAfter_append_of_no_start h (hs _ fun kind => by cases kind <;> decide)
    have hlast : SectionKind.comment.start <:+ since ++ ['<', '!', '-'] ++ ['-'] :=
      ⟨since, by rw [hstart, List.append_assoc]⟩
    rw [hstart, ← List.append_assoc, placeAfter_concat, hplace]
    exact if_pos hlast
  | cdata =>
    have hstart : SectionKind.cdata.start = ['<', '!', '[', 'C', 'D', 'A', 'T', 'A'] ++ ['['] := rfl
    have hplace : placeAfter (text ++ ['<', '!', '[', 'C', 'D', 'A', 'T', 'A']) =
        ⟨none, since ++ ['<', '!', '[', 'C', 'D', 'A', 'T', 'A']⟩ :=
      placeAfter_append_of_no_start h (hs _ fun kind => by cases kind <;> decide)
    have hother : ¬ SectionKind.comment.start <:+
        since ++ ['<', '!', '[', 'C', 'D', 'A', 'T', 'A'] ++ ['['] :=
      not_suffix_of_ne (v := ['<', '!', '-']) (w := ['-']) rfl (by decide)
    have hlast : SectionKind.cdata.start <:+
        since ++ ['<', '!', '[', 'C', 'D', 'A', 'T', 'A'] ++ ['['] :=
      ⟨since, by rw [hstart, List.append_assoc]⟩
    rw [hstart, ← List.append_assoc, placeAfter_concat, hplace]
    exact (if_neg hother).trans (if_pos hlast)

/-- Inside a section the scan stands where the section has been read to. -/
theorem placeAfter_inside {text since part : List Char} {kind : SectionKind}
    (h : placeAfter text = ⟨none, since⟩) (hs : Settled since) (hpart : ¬ kind.stop <:+: part) :
    placeAfter (text ++ (kind.start ++ part)) = ⟨some kind, part⟩ := by
  rw [← List.append_assoc]
  exact placeAfter_append_of_not_infix (placeAfter_open h hs kind) hpart

/-- Behind a section the scan stands outside again. -/
theorem placeAfter_close {text since inside : List Char} {kind : SectionKind}
    (h : placeAfter text = ⟨none, since⟩) (hs : Settled since) (hinside : ¬ kind.stop <:+: inside) :
    placeAfter (text ++ (kind.start ++ (inside ++ kind.stop))) = ⟨none, []⟩ := by
  obtain ⟨w, hw, hgt⟩ : ∃ w, kind.stop = w ++ ['>'] ∧ '>' ∉ w := by
    cases kind with
    | comment => exact ⟨['-', '-'], rfl, by decide⟩
    | cdata => exact ⟨[']', ']'], rfl, by decide⟩
  -- Only the last character of the stop completes one.
  have hfree : ¬ kind.stop <:+: inside ++ w := by
    rw [hw] at hinside ⊢
    exact not_infix_append_of_not_mem hinside hgt
  have hplace := placeAfter_inside h hs hfree
  have hstop : kind.stop <:+ inside ++ w ++ ['>'] := ⟨inside, by rw [hw, List.append_assoc]⟩
  have htext : text ++ (kind.start ++ (inside ++ kind.stop)) =
      text ++ (kind.start ++ (inside ++ w)) ++ ['>'] := by rw [hw]; simp
  rw [htext, placeAfter_concat, hplace]
  exact if_pos hstop

/-- The scan from the left stands outside sections behind each row of tokens that conceal none. -/
theorem placeAfter_render {ps : List Token} (hsound : ∀ t ∈ ps, t.Sound)
    (hclear : ∀ t ∈ ps, ¬ t.Conceals) :
    ∃ since, placeAfter (render ps) = ⟨none, since⟩ ∧ Settled since := by
  induction ps using List.reverseRecOn with
  | nil => exact ⟨[], rfl, fun s hs => hs⟩
  | append_singleton ps t ih =>
    obtain ⟨since, hplace, hs⟩ := ih (fun x hx => hsound x (List.mem_append_left _ hx))
      fun x hx => hclear x (List.mem_append_left _ hx)
    have ht := hsound t (by simp)
    have htext : render (ps ++ [t]) = render ps ++ t.chars := by simp [render]
    -- A token that ends with `>` and holds no start is read outside.
    have hgt : ∀ s, t.chars = s ++ ['>'] → NoStart t.chars →
        ∃ since', placeAfter (render ps ++ t.chars) = ⟨none, since'⟩ ∧ Settled since' := by
      intro s hchars hnone
      refine ⟨since ++ t.chars, placeAfter_append_of_no_start hplace (hs _ hnone), ?_⟩
      rw [hchars] at hnone ⊢
      exact hs.append_gt hnone
    rw [htext]
    cases t with
    | text chars =>
      have hnone : NoStart chars := by
        have hnil : NoStart [] := fun kind => by cases kind <;> decide
        simpa using hnil.append ht
      exact ⟨since ++ chars, placeAfter_append_of_no_start hplace (hs _ hnone), hs.append_text ht⟩
    | aside kind inside =>
      cases kind with
      | unparsed kind =>
        exact ⟨[], placeAfter_close hplace hs (occurs_eq_false.mp ht), fun s hs => hs⟩
      | instruction =>
        obtain ⟨s, hchars⟩ := aside_chars .instruction inside
        exact hgt s hchars fun kind hstart =>
          hclear (.aside .instruction inside) (by simp) ⟨kind, hstart⟩
      | declaration =>
        obtain ⟨s, hchars⟩ := aside_chars .declaration inside
        exact hgt s hchars fun kind hstart =>
          hclear (.aside .declaration inside) (by simp) ⟨kind, hstart⟩
    | opens name attributes =>
      have hlt := lt_not_mem_of_quotesClosed ht.2.2
      obtain ⟨c, s, rfl, hc⟩ := ht.1.eq_cons
      exact hgt ('<' :: (c :: s ++ attributes)) (by simp [Token.chars])
        (noStart_tag hc (by simpa [hlt] using ht.1.lt_not_mem))
    | empty name attributes =>
      have hlt := lt_not_mem_of_quotesClosed ht.2.2
      obtain ⟨c, s, rfl, hc⟩ := ht.1.eq_cons
      exact hgt ('<' :: (c :: s ++ (attributes ++ ['/']))) (by simp [Token.chars])
        (noStart_tag hc (by simpa [hlt] using ht.1.lt_not_mem))
    | closes name blanks =>
      have hlt : '<' ∉ blanks :=
        fun hmem => absurd (List.all_eq_true.mp ht.2 '<' hmem) (by decide)
      exact hgt ('<' :: '/' :: (name ++ blanks)) (by simp [Token.chars])
        (noStart_tag (by decide) (by simpa [hlt] using ht.1.lt_not_mem))

end StylesheetTrace.Stylesheet
