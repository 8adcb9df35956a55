import StylesheetTrace.Document
import StylesheetTrace.Proofs.Markup.Tag
import StylesheetTrace.Proofs.Stylesheet.Document

/-!
# The root of a business document

A document is searched for its root by the look of a start tag: a name in letters behind a prefix
without dots, or without a prefix. The search knows neither comments nor processing instructions,
and it goes on behind a root whose name has another look. It tells what the root is exactly when
neither leads it to a name for which the answer is another one (`detect?_eq_ofName?_iff`): it is
right about each root that it can read, unless the text before it shows a start tag.

The text before the root is read for itself (`firstForm?_prolog`), since a start tag that is shown in
an aside ends at the latest with the `>` of the aside.
-/

namespace StylesheetTrace.DocumentInfo

open StylesheetTrace.Text StylesheetTrace.Markup StylesheetTrace.Stylesheet

/-! ## Start tags that a text shows -/

/-- The name of a tag. -/
structure TagName where
  /-- The prefix, if there is one. -/
  qualifier : Option (List Char)
  /-- The local name. -/
  localName : List Char
  deriving Repr, DecidableEq

namespace TagName

/-- The characters of the name. -/
def chars (x : TagName) : List Char :=
  match x.qualifier with
  | none => x.localName
  | some p => p ++ ':' :: x.localName

/-- The prefix and the local name are names without colons. -/
def IsQualified (x : TagName) : Prop :=
  (∀ p ∈ x.qualifier, IsName p ∧ ':' ∉ p) ∧ IsName x.localName ∧ ':' ∉ x.localName

instance (x : TagName) : Decidable x.IsQualified :=
  inferInstanceAs (Decidable
    ((∀ p ∈ x.qualifier, IsName p ∧ ':' ∉ p) ∧ IsName x.localName ∧ ':' ∉ x.localName))

/-- The local name is made of letters, and the prefix of the characters of one without dots. -/
def Readable (x : TagName) : Prop :=
  (∀ p ∈ x.qualifier, p ≠ [] ∧ p.all isPlainPrefixChar = true) ∧
    x.localName ≠ [] ∧ x.localName.all Char.isAlpha = true

end TagName

/-- The text begins like the start tag of an element with a readable name. -/
def BeginsTag (x : TagName) (s : List Char) : Prop :=
  x.Readable ∧ ∃ c rest, s = '<' :: (x.chars ++ c :: rest) ∧ endsName (c :: rest) = true

/-- The text shows a start tag. -/
def Shows (x : TagName) (s : List Char) : Prop :=
  ∃ t, t <:+ s ∧ BeginsTag x t

/-- The start tag is the first one that the text shows. -/
def ShowsFirst (x : TagName) (s : List Char) : Prop :=
  ∃ t, t <:+ s ∧ BeginsTag x t ∧ ∀ y u, u <:+ s → BeginsTag y u → u <:+ t

/-- A letter is a character of a prefix without dots. -/
theorem isPlainPrefixChar_of_isAlpha {c : Char} (h : c.isAlpha = true) :
    isPlainPrefixChar c = true := by
  simp [isPlainPrefixChar, Char.isAlphanum, h]

/-- A readable name is made of characters of a prefix and colons. -/
theorem TagName.Readable.mem_chars {x : TagName} (h : x.Readable) {c : Char} (hc : c ∈ x.chars) :
    isPrefixChar c = true ∨ c = ':' := by
  have hlocal : c ∈ x.localName → isPrefixChar c = true := fun hmem =>
    isPrefixChar_of_isPlainPrefixChar
      (isPlainPrefixChar_of_isAlpha (List.all_eq_true.mp h.2.2 c hmem))
  unfold TagName.chars at hc
  split at hc
  · exact Or.inl (hlocal hc)
  · rename_i p hp
    rcases List.mem_append.mp hc with hc | hc
    · exact Or.inl (isPrefixChar_of_isPlainPrefixChar (List.all_eq_true.mp (h.1 p hp).2 c hc))
    · rcases List.mem_cons.mp hc with hc | hc
      · exact Or.inr hc
      · exact Or.inl (hlocal hc)

/-- Letters are read as the local name of a root where the name ends behind them. -/
theorem rootName?_eq_some_iff {s n : List Char} :
    (rootName? s).map Prod.fst = some n ↔
      (n ≠ [] ∧ n.all Char.isAlpha = true) ∧
        ∃ c rest, s = n ++ c :: rest ∧ endsName (c :: rest) = true := by
  constructor
  · intro h
    obtain ⟨⟨m, rest⟩, hread, rfl⟩ := Option.map_eq_some_iff.mp h
    unfold rootName? at hread
    split at hread
    · rename_i c rest' hdrop
      split at hread
      · rename_i hends
        obtain ⟨rfl, rfl⟩ := Prod.mk.inj (Option.some.inj hread)
        rw [Bool.and_eq_true, Bool.not_eq_true', List.isEmpty_eq_false_iff] at hends
        exact ⟨⟨hends.2, List.all_takeWhile⟩, c, rest',
          by rw [← hdrop, List.takeWhile_append_dropWhile], hends.1⟩
      · exact absurd hread (by simp)
    · exact absurd hread (by simp)
  · rintro ⟨⟨hne, hletters⟩, c, rest, rfl, hends⟩
    have hstop : c.isAlpha = false := by
      rw [← Bool.not_eq_true]
      intro hc
      rw [endsName_cons_eq_false (Or.inl (isPrefixChar_of_isPlainPrefixChar
        (isPlainPrefixChar_of_isAlpha hc)))] at hends
      exact Bool.false_ne_true hends
    have hhead : ∀ d ∈ (c :: rest).head?, d.isAlpha = false := head?_cons_eq_false hstop rest
    have hall := List.all_eq_true.mp hletters
    unfold rootName?
    rw [dropWhile_append_of_head hhead, takeWhile_append_of_head hhead,
      List.dropWhile_eq_nil_iff.mpr hall, List.takeWhile_eq_self_iff.mpr hall, List.nil_append]
    simp only
    rw [endsName] at hends
    rw [if_pos (by simp [hends, hne])]
    rfl

/-- A start tag begins with `<`. -/
theorem startTag?_of_ne (c : Char) (s : List Char) (h : c ≠ '<') : startTag? (c :: s) = none := by
  unfold startTag?
  split
  · rename_i heq
    exact absurd (List.cons.inj heq).1 h
  · rfl

/-- Behind `<` a root is read with its prefix, or else without one. -/
theorem startTag?_lt (s : List Char) : startTag? ('<' :: s) =
    ((afterPrefix? isPlainPrefixChar s).bind rootName?).or (rootName? s) := by
  rw [startTag?, qualified]
  simp only [after?_nil, Option.bind_some]
  cases (afterPrefix? isPlainPrefixChar s).bind rootName? <;> rfl

/-- What is read as a start tag is what looks like one. -/
theorem startTag?_eq_some_iff {s n : List Char} :
    (startTag? s).map Prod.fst = some n ↔ ∃ x : TagName, x.localName = n ∧ BeginsTag x s := by
  constructor
  · intro h
    obtain ⟨t, rfl⟩ : ∃ t, s = '<' :: t := by
      unfold startTag? at h
      split at h
      · exact ⟨_, rfl⟩
      · exact absurd h (by simp)
    rw [startTag?_lt, Option.map_or, Option.or_eq_some_iff] at h
    rcases h with h | ⟨-, h⟩
    · rw [Option.map_bind, Option.bind_eq_some_iff] at h
      obtain ⟨u, hu, hread⟩ := h
      obtain ⟨hname, c, rest, rfl, hends⟩ := rootName?_eq_some_iff.mp hread
      obtain ⟨ht, hne⟩ := eq_of_afterPrefix? hu
      refine ⟨⟨some (t.takeWhile isPlainPrefixChar), n⟩, rfl, ⟨?_, hname⟩, c, rest, ?_, hends⟩
      · rintro p ⟨⟩
        exact ⟨hne, List.all_takeWhile⟩
      · rw [TagName.chars, List.append_assoc]
        exact congrArg ('<' :: ·) ht
    · obtain ⟨hname, c, rest, rfl, hends⟩ := rootName?_eq_some_iff.mp h
      exact ⟨⟨none, n⟩, rfl, ⟨by simp, hname⟩, c, rest, rfl, hends⟩
  · rintro ⟨⟨qualifier, m⟩, rfl, ⟨hqualifier, hname⟩, c, rest, rfl, hends⟩
    obtain ⟨form, hread, hform⟩ := Option.map_eq_some_iff.mp
      (rootName?_eq_some_iff.mpr ⟨hname, c, rest, rfl, hends⟩)
    cases qualifier with
    | none =>
      -- Behind the letters the name ends, so that they are no prefix.
      have hbare : afterPrefix? isPlainPrefixChar (m ++ c :: rest) = none := by
        refine afterPrefix?_eq_none (fun d hd => isPlainPrefixChar_of_isAlpha
          (List.all_eq_true.mp hname.2 d hd)) fun d hd => ?_
        have hchar := not_nameChar_of_endsName hends d hd
        exact ⟨eq_false_of_isPrefixChar (fun _ => isPrefixChar_of_isPlainPrefixChar) hchar.1,
          hchar.2⟩
      rw [startTag?_lt, TagName.chars, hbare, Option.bind_none, Option.none_or, hread]
      exact congrArg some hform
    | some p =>
      obtain ⟨hne, hp⟩ := hqualifier p rfl
      rw [startTag?_lt, TagName.chars, List.append_assoc, List.cons_append,
        afterPrefix?_append (by decide) hne (List.all_eq_true.mp hp), Option.bind_some, hread,
        Option.some_or]
      exact congrArg some hform

/-- Nothing is read as a start tag exactly where no start tag begins. -/
theorem startTag?_eq_none_iff {s : List Char} :
    startTag? s = none ↔ ∀ x : TagName, ¬ BeginsTag x s := by
  rw [← Option.map_eq_none_iff, Option.eq_none_iff_forall_ne_some]
  constructor
  · intro h x hx
    exact h x.localName (startTag?_eq_some_iff.mpr ⟨x, rfl, hx⟩)
  · intro h n hn
    obtain ⟨x, -, hx⟩ := startTag?_eq_some_iff.mp hn
    exact h x hx

/-- The first form is the local name of the first start tag that the text shows. -/
theorem firstForm?_startTag?_eq_some_iff {s n : List Char} :
    firstForm? startTag? s = some n ↔ ∃ x : TagName, x.localName = n ∧ ShowsFirst x s := by
  have hsome : ∀ u, (startTag? u).isSome = true ↔ ∃ y : TagName, BeginsTag y u := by
    intro u
    rw [Option.isSome_iff_ne_none, ne_eq, startTag?_eq_none_iff]
    simp
  rw [firstForm?_eq_some_iff rfl]
  constructor
  · rintro ⟨t, ht, hread, hfirst⟩
    obtain ⟨x, hx, hbegins⟩ := startTag?_eq_some_iff.mp hread
    exact ⟨x, hx, t, ht, hbegins, fun y u hu hy => hfirst u hu ((hsome u).mpr ⟨y, hy⟩)⟩
  · rintro ⟨x, hx, t, ht, hbegins, hfirst⟩
    refine ⟨t, ht, startTag?_eq_some_iff.mpr ⟨x, hx, hbegins⟩, fun u hu hread => ?_⟩
    obtain ⟨y, hy⟩ := (hsome u).mp hread
    exact hfirst y u hu hy

/-- A text has no first form exactly when it shows no start tag. -/
theorem firstForm?_startTag?_eq_none_iff {s : List Char} :
    firstForm? startTag? s = none ↔ ∀ x : TagName, ¬ Shows x s := by
  rw [firstForm?_eq_none_iff]
  simp only [startTag?_eq_none_iff, Shows, not_exists, not_and]
  exact ⟨fun h x t ht => h t ht x, fun h t ht x => h x t ht⟩

/-! ## The text before the root -/

/-- A start tag that begins before a `>` ends there at the latest. -/
theorem beginsTag_append_gt {x : TagName} {c : Char} {s t : List Char} :
    BeginsTag x (c :: s ++ '>' :: t) ↔ BeginsTag x (c :: s ++ ['>']) := by
  refine and_congr_right fun hx => ?_
  have hgt : '>' ∉ '<' :: x.chars := by
    rw [List.mem_cons, not_or]
    refine ⟨by decide, fun hmem => ?_⟩
    exact absurd (hx.mem_chars hmem) (by decide)
  constructor
  · rintro ⟨d, rest, htext, hends⟩
    obtain ⟨b, hb, hrest⟩ := append_cons_eq_append hgt htext
    cases b with
    | nil => exact ⟨'>', [], by simp [hb], rfl⟩
    | cons e b =>
      obtain ⟨rfl, -⟩ := List.cons.inj hrest
      exact ⟨d, b ++ ['>'], by simp [hb], hends⟩
  · rintro ⟨d, rest, htext, hends⟩
    refine ⟨d, rest ++ t, ?_, hends⟩
    have happend := congrArg (· ++ t) htext
    simpa using happend

/-- The search looks for a start tag before a `>` and, if there is none, behind it. -/
theorem firstForm?_append_gt (s t : List Char) : firstForm? startTag? (s ++ '>' :: t) =
    (firstForm? startTag? (s ++ ['>'])).or (firstForm? startTag? t) := by
  have hnil : ∀ u, firstForm? startTag? ('>' :: u) = firstForm? startTag? u :=
    fun u => firstForm?_append (t := ['>']) ⟨rfl, trivial⟩
  induction s with
  | nil =>
    rw [List.nil_append, List.nil_append, hnil, hnil []]
    rfl
  | cons c s ih =>
    have hhead : (startTag? (c :: (s ++ '>' :: t))).map Prod.fst =
        (startTag? (c :: (s ++ ['>']))).map Prod.fst := by
      refine Option.ext fun n => ?_
      rw [startTag?_eq_some_iff, startTag?_eq_some_iff]
      exact exists_congr fun x => and_congr_right fun _ => beginsTag_append_gt
    rw [List.cons_append, List.cons_append, firstForm?_cons, firstForm?_cons, ih, hhead,
      Option.or_assoc]

/-- A piece of the text before a root: blanks, a processing instruction, as which the declaration of
the document counts, or a comment. -/
def IsPreliminary : Token → Prop
  | .text chars => chars.all isSpace = true
  | .aside .instruction inside => (Token.aside .instruction inside).Sound
  | .aside (.unparsed .comment) inside => (Token.aside (.unparsed .comment) inside).Sound
  | _ => False

instance : DecidablePred IsPreliminary
  | .text chars => inferInstanceAs (Decidable (chars.all isSpace = true))
  | .aside .instruction inside =>
    inferInstanceAs (Decidable (Token.aside .instruction inside).Sound)
  | .aside (.unparsed .comment) inside =>
    inferInstanceAs (Decidable (Token.aside (.unparsed .comment) inside).Sound)
  | .aside (.unparsed .cdata) _ => inferInstanceAs (Decidable False)
  | .aside .declaration _ => inferInstanceAs (Decidable False)
  | .opens _ _ => inferInstanceAs (Decidable False)
  | .empty _ _ => inferInstanceAs (Decidable False)
  | .closes _ _ => inferInstanceAs (Decidable False)

/-- Blanks show no start tag, and an aside ends with `>`. -/
theorem IsPreliminary.cases {t : Token} (h : IsPreliminary t) :
    '<' ∉ t.chars ∨ ∃ s, t.chars = s ++ ['>'] := by
  cases t with
  | text chars =>
    refine Or.inl fun hmem => ?_
    exact absurd (List.all_eq_true.mp h '<' hmem) (by decide)
  | aside kind inside => exact Or.inr (aside_chars kind inside)
  | opens => exact absurd h id
  | empty => exact absurd h id
  | closes => exact absurd h id

/-- The text before a root is searched for itself, and what follows it if it shows no start tag. -/
theorem firstForm?_prolog {prolog : List Token} (h : ∀ t ∈ prolog, IsPreliminary t)
    (s : List Char) : firstForm? startTag? (render prolog ++ s) =
      (firstForm? startTag? (render prolog)).or (firstForm? startTag? s) := by
  induction prolog with
  | nil => rfl
  | cons t prolog ih =>
    have hrest := ih fun t' ht' => h t' (List.mem_cons_of_mem t ht')
    rw [render_cons, List.append_assoc]
    rcases (h t List.mem_cons_self).cases with hlt | ⟨u, hu⟩
    · rw [firstForm?_append (silent_of_not_mem startTag?_of_ne hlt _),
        firstForm?_append (silent_of_not_mem startTag?_of_ne hlt _), hrest]
    · rw [hu, List.append_assoc, List.append_assoc, List.singleton_append, List.singleton_append,
        firstForm?_append_gt, firstForm?_append_gt u (render prolog), hrest, Option.or_assoc]

/-! ## Documents with a root -/

/-- A document with its root. -/
structure RootedText where
  /-- The tokens before the root. -/
  prolog : List Token
  /-- The name of the root. -/
  root : TagName
  /-- The attributes of the root. -/
  attributes : List Char
  /-- The root is an element without content. -/
  isEmpty : Bool
  /-- Any text behind the start tag of the root. -/
  content : List Char
  /-- Before the root stand only tokens that are passed over. -/
  prolog_ok : ∀ t ∈ prolog, IsPreliminary t
  /-- The name of the root is a qualified name. -/
  root_ok : root.IsQualified
  /-- The attributes are those of a tag. -/
  attributes_ok : IsAttributes attributes

namespace RootedText

/-- The start tag of the root. -/
def rootTag (d : RootedText) : Token :=
  if d.isEmpty then .empty d.root.chars d.attributes else .opens d.root.chars d.attributes

/-- The characters of the document. -/
def chars (d : RootedText) : List Char :=
  render d.prolog ++ (d.rootTag.chars ++ d.content)

/-- The text of the document. -/
def text (d : RootedText) : String :=
  String.ofList d.chars

/-- The place behind the start tag of the root. -/
def rootEnd (d : RootedText) : Nat :=
  (render d.prolog).length + d.rootTag.chars.length

/-- What is searched of the document from the start tag of the root on. -/
def searched (d : RootedText) : List Char :=
  d.rootTag.chars ++ d.content.take (headSize - d.rootEnd)

end RootedText

/-- The info for a document whose root has the local name `n`, if that is a known document type. -/
def ofName? (n : List Char) : Option DocumentInfo :=
  if knownTypes.contains (String.ofList n) then some (ofRoot (String.ofList n)) else none

/-- A search for the root in a text gives the answer for the local name `n`: the first start tag
that the text shows has it, or a name with the same answer. -/
def Answers (s n : List Char) : Prop :=
  (∀ x, ShowsFirst x s → ofName? x.localName = ofName? n) ∧
    ((∀ x, ¬ Shows x s) → ofName? n = none)

/-- The search is not misled about the root: the text before the root shows no start tag for which
the answer is another one, and if it shows none, the name of the root is readable, or the search
that passes over it gives the same answer. -/
def RootedText.Faithful (d : RootedText) : Prop :=
  (∀ x, ShowsFirst x (render d.prolog) → ofName? x.localName = ofName? d.root.localName) ∧
    ((∀ x, ¬ Shows x (render d.prolog)) → d.root.Readable ∨ Answers d.searched d.root.localName)

/-- A search gives the answer for a name exactly when what it finds, if anything, does. -/
theorem answers_iff {s n : List Char} :
    Answers s n ↔ (firstForm? startTag? s).bind ofName? = ofName? n := by
  cases h : firstForm? startTag? s with
  | none =>
    have hnone := firstForm?_startTag?_eq_none_iff.mp h
    rw [Option.bind_none, eq_comm]
    constructor
    · exact fun hanswers => hanswers.2 hnone
    · intro hn
      exact ⟨fun x ⟨t, ht, hx, _⟩ => absurd ⟨t, ht, hx⟩ (hnone x), fun _ => hn⟩
  | some m =>
    obtain ⟨x, rfl, hx⟩ := firstForm?_startTag?_eq_some_iff.mp h
    rw [Option.bind_some]
    constructor
    · exact fun hanswers => hanswers.1 x hx
    · intro hm
      refine ⟨fun y hy => ?_, fun hnone => ?_⟩
      · have hname := firstForm?_startTag?_eq_some_iff.mpr ⟨y, rfl, hy⟩
        rw [Option.some.inj (hname.symm.trans h), hm]
      · obtain ⟨t, ht, hbegins, -⟩ := hx
        exact absurd ⟨t, ht, hbegins⟩ (hnone x)

section

variable {d : RootedText}

/-- Behind the name of the root stands a character that ends it. -/
theorem RootedText.rootTag_eq (d : RootedText) : ∃ c rest,
    d.rootTag.chars = '<' :: (d.root.chars ++ c :: rest) ∧ endsName (c :: rest) = true := by
  have hbehind : ∀ e t, endsName (e :: t) = true →
      ∃ c rest, d.attributes ++ e :: t = c :: rest ∧ endsName (c :: rest) = true := by
    intro e t he
    obtain ⟨c, rest, heq, hc⟩ := exists_cons_append_attributes d.attributes_ok.1 e t
    refine ⟨c, rest, heq, ?_⟩
    rcases hc with hspace | rfl
    · simp [endsName, isBlank_of_isSpace hspace]
    · exact he
  unfold RootedText.rootTag
  cases d.isEmpty with
  | true =>
    obtain ⟨c, rest, hrest, hends⟩ := hbehind '/' ['>'] rfl
    exact ⟨c, rest, by rw [← hrest]; rfl, hends⟩
  | false =>
    obtain ⟨c, rest, hrest, hends⟩ := hbehind '>' [] rfl
    exact ⟨c, rest, by rw [← hrest]; rfl, hends⟩

/-- A root with a readable name is read from its start tag on. -/
theorem RootedText.firstForm?_searched (h : d.root.Readable) :
    firstForm? startTag? d.searched = some d.root.localName := by
  obtain ⟨c, rest, hroot, hends⟩ := d.rootTag_eq
  have htag : d.searched = '<' :: (d.root.chars ++
      c :: (rest ++ d.content.take (headSize - d.rootEnd))) := by
    rw [RootedText.searched, hroot]
    simp
  have hread : (startTag? d.searched).map Prod.fst = some d.root.localName :=
    startTag?_eq_some_iff.mpr ⟨d.root, rfl, h, c, _, htag, hends⟩
  obtain ⟨⟨n, u⟩, hform, rfl⟩ := Option.map_eq_some_iff.mp hread
  exact firstForm?_append_of_silent (t := []) trivial hform

/-- What is searched of a document is the text before its root and what follows it from there. -/
theorem RootedText.take_chars (hend : d.rootEnd ≤ headSize) :
    d.chars.take headSize = render d.prolog ++ d.searched := by
  unfold RootedText.rootEnd at hend
  rw [RootedText.chars, List.take_append, List.take_append, List.take_of_length_le (by omega),
    List.take_of_length_le (by omega), Nat.sub_sub]
  rfl

/-- The answer for a document is that for the first start tag shown before its root, or else that of
the search from its root on. -/
theorem RootedText.detect?_text (hend : d.rootEnd ≤ headSize) :
    detect? d.text = ((firstForm? startTag? (render d.prolog)).or
      (firstForm? startTag? d.searched)).bind ofName? := by
  rw [detect?, RootedText.text, String.toList_ofList, RootedText.take_chars hend,
    firstForm?_prolog d.prolog_ok]
  rfl

end

/-- A document whose root ends in the part that is searched is answered for by its root exactly when
the search is not misled about it. -/
theorem detect?_eq_ofName?_iff (d : RootedText) (hend : d.rootEnd ≤ headSize) :
    detect? d.text = ofName? d.root.localName ↔ d.Faithful := by
  rw [RootedText.detect?_text hend, RootedText.Faithful]
  cases h : firstForm? startTag? (render d.prolog) with
  | some n =>
    -- The start tag that is shown before the root decides.
    obtain ⟨x, rfl, hx⟩ := firstForm?_startTag?_eq_some_iff.mp h
    have hshows : ¬ ∀ y, ¬ Shows y (render d.prolog) := by
      rw [← firstForm?_startTag?_eq_none_iff, h]
      simp
    have hanswers := answers_iff (s := render d.prolog) (n := d.root.localName)
    rw [h, Option.bind_some] at hanswers
    rw [Option.some_or, Option.bind_some, ← hanswers]
    exact and_congr_right fun _ => iff_of_true (fun hnone => absurd hnone hshows)
      fun hnone => absurd hnone hshows
  | none =>
    have hnone := firstForm?_startTag?_eq_none_iff.mp h
    have hfirst : ∀ x, ShowsFirst x (render d.prolog) →
        ofName? x.localName = ofName? d.root.localName :=
      fun x ⟨t, ht, hx, _⟩ => absurd ⟨t, ht, hx⟩ (hnone x)
    rw [Option.none_or, ← answers_iff]
    constructor
    · exact fun hanswers => ⟨hfirst, fun _ => Or.inr hanswers⟩
    · rintro ⟨-, hroot⟩
      rcases hroot hnone with hreadable | hanswers
      · rw [answers_iff, RootedText.firstForm?_searched hreadable, Option.bind_some]
      · exact hanswers

/-- A credit note behind the declaration of the document and a comment. -/
def creditNote : RootedText where
  prolog :=
    [.aside .instruction "xml version=\"1.0\"".toList, .text ['\n'],
      .aside (.unparsed .comment) " generated ".toList, .text ['\n']]
  root := ⟨some "ubl".toList, "CreditNote".toList⟩
  attributes := " version=\"2.1\"".toList
  isEmpty := false
  content := "</ubl:CreditNote>".toList
  prolog_ok := by decide
  root_ok := by decide
  attributes_ok := by decide

/-- The search is not misled about the credit note. -/
theorem creditNote_faithful : creditNote.rootEnd ≤ headSize ∧ creditNote.Faithful :=
  ⟨by decide, (detect?_eq_ofName?_iff creditNote (by decide)).mp (by decide +kernel)⟩

/-- A tag in a comment is taken for the root. -/
example : detect? "<!-- <Invoice> --><html/>" = some (ofRoot "Invoice") := by decide +kernel

end StylesheetTrace.DocumentInfo
