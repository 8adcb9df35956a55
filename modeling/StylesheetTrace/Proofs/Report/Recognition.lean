import Mathlib.Data.List.Forall2
import StylesheetTrace.Proofs.Report.LogText

/-!
# What a log loses

A line of a log is recognised when it mentions an error behind a line number. Its message is what
stands behind the first phrase that announces a finding, or else behind the first line number that
such a mention follows. A line that is not recognised states no issue, and neither does one whose
message holds the words of the summary, also where the message only quotes them
(`treats_of_logIssues`).
-/

namespace StylesheetTrace.Report

open StylesheetTrace.Text StylesheetTrace.Finding

/-! ## What a line shows -/

/-- Behind a line number the line goes on with the text `tail`. -/
def Numbered (line tail : List Char) : Prop :=
  ∃ ds, ds ≠ [] ∧ (∀ c ∈ ds, isDigit c = true) ∧ ':' :: (ds ++ ':' :: tail) <:+ line

/-- Behind a phrase that announces a finding, and its colon, the text goes on with `message`. -/
def Phrased (tail message : List Char) : Prop :=
  ∃ p ∈ phrases, ∃ bs, (∀ c ∈ bs, isBlank c = true) ∧ p.toList ++ (bs ++ ':' :: message) <:+ tail

/-- Behind a line number, and a phrase further on, the line goes on with `message`. -/
def Announces (line message : List Char) : Prop :=
  ∃ tail, Numbered line tail ∧ Phrased tail message

/-- The text holds the word `error` in any case. -/
def MentionsError (s : List Char) : Prop :=
  ∃ w, w.map foldCase = "error".toList ∧ w <:+: s

/-- The line mentions an error behind a line number. -/
def Recognised (line : List Char) : Prop :=
  ∃ tail, Numbered line tail ∧ MentionsError tail

/-- The words of the summary stand in what the line announces or, if it announces nothing, behind a
line number with a mention of an error. -/
def QuotesSummary (line : List Char) : Prop :=
  (∃ message, Announces line message ∧ summaryPhrase.toList <:+: message) ∨
    (¬ ∃ message, Announces line message) ∧
      ∃ tail, Numbered line tail ∧ MentionsError tail ∧ summaryPhrase.toList <:+: tail

/-! ## The first phrase -/

/-- A phrase begins with a letter and holds no colon. -/
theorem exists_cons_of_mem_phrases {p : String} (hp : p ∈ phrases) :
    ∃ c t, p.toList = c :: t ∧ isBlank c = false ∧ ':' ∉ p.toList := by
  rcases List.mem_pair.mp hp with rfl | rfl
  · exact ⟨'S', "chemas validity error".toList, by decide⟩
  · exact ⟨'p', "arser error".toList, by decide⟩

/-- Behind a phrase that stands further on, less of the text is left. -/
theorem suffix_of_phrases {p q : String} (hp : p ∈ phrases) {bs cs t u : List Char}
    (hbs : ∀ c ∈ bs, isBlank c = true)
    (h : q.toList ++ (cs ++ ':' :: u) <:+ p.toList ++ (bs ++ ':' :: t)) : u <:+ t := by
  obtain ⟨-, -, -, -, hcolon⟩ := exists_cons_of_mem_phrases hp
  have hblank : ':' ∉ bs := fun hmem => absurd (hbs _ hmem) (by decide)
  rw [← List.append_assoc, ← List.append_assoc] at h
  exact suffix_of_append_cons_suffix (by simp [hcolon, hblank]) h

/-- A phrase begins behind the blanks at the head of a text. -/
theorem suffix_dropWhile_of_phrase {p : String} (hp : p ∈ phrases) {t tail : List Char}
    (h : p.toList ++ t <:+ tail) : p.toList ++ t <:+ tail.dropWhile isBlank := by
  obtain ⟨c, u, hword, hc, -⟩ := exists_cons_of_mem_phrases hp
  rw [hword, List.cons_append] at h ⊢
  exact suffix_dropWhile hc h

/-- The leftmost phrase is the one behind which the text goes on the longest. -/
theorem exists_longest_of_phrase {tail t rest : List Char}
    (h : leftmost? afterPhrase? (tail.dropWhile isBlank) = some (t, (), rest)) :
    ∃ m, Phrased tail m ∧ rest = m.dropWhile isBlank ∧ ∀ n, Phrased tail n → n <:+ m := by
  obtain ⟨u, hu, hread, hlongest⟩ := exists_longest_of_leftmost? h
  obtain ⟨p, hp, bs, m, hbs, rfl, rfl⟩ := exists_of_afterPhrase? hread
  refine ⟨m, ⟨p, hp, bs, hbs, hu.trans (List.dropWhile_suffix _)⟩, rfl, ?_⟩
  rintro n ⟨q, hq, cs, hcs, hn⟩
  refine suffix_of_phrases hp hbs (hlongest _ (suffix_dropWhile_of_phrase hq hn) ?_)
  rw [afterPhrase?_append hq hcs]
  rfl

/-- A text with a phrase has a leftmost one. -/
theorem isSome_leftmost?_of_phrased {tail m : List Char} (h : Phrased tail m) :
    (leftmost? afterPhrase? (tail.dropWhile isBlank)).isSome = true := by
  obtain ⟨p, hp, bs, hbs, hm⟩ := h
  refine hasForm_iff.mpr ⟨_, suffix_dropWhile_of_phrase hp hm, ?_⟩
  rw [afterPhrase?_append hp hbs]
  rfl

/-! ## The first line number -/

/-- Behind a line number that stands further on, less of the line is left. -/
theorem suffix_of_numbers {ds es t u : List Char} (hds : ∀ c ∈ ds, isDigit c = true)
    (h : ':' :: (es ++ ':' :: u) <:+ ':' :: (ds ++ ':' :: t)) : u <:+ t := by
  have hcolon : ':' ∉ ds := fun hmem => absurd (hds _ hmem) (by decide)
  have hbehind : es ++ ':' :: u <:+ ds ++ ':' :: t := by
    rcases List.suffix_cons_iff.mp h with heq | hsuffix
    · exact (List.cons.inj heq).2 ▸ List.suffix_refl _
    · exact (List.suffix_cons _ _).trans hsuffix
  exact suffix_of_append_cons_suffix hcolon hbehind

/-- A line number, and what `f` reads behind it and the blanks that follow. -/
def behindNumber (f : List Char → Option (List Char)) : Reader (List Char × List Char) := fun s =>
  (lineNumber? s).bind fun (ds, rest) => (f rest).map fun m => ((ds, m), m)

/-- An announcement is read behind a line number. -/
theorem announced?_eq_behindNumber : announced? =
    behindNumber fun s => (leftmost? afterPhrase? s).map fun found => found.2.2 := by
  funext s
  unfold announced? behindNumber
  cases h : lineNumber? s with
  | none => rfl
  | some number =>
    cases hphrase : leftmost? afterPhrase? number.2 <;> simp [hphrase]

/-- A mention of an error is read behind a line number. -/
theorem mentioned?_eq_behindNumber : mentioned? =
    behindNumber fun s => if hasForm errorWord? s then some s else none := by
  funext s
  unfold mentioned? behindNumber
  cases h : lineNumber? s with
  | none => rfl
  | some number =>
    cases herror : hasForm errorWord? number.2 <;> simp [herror]

section

variable {f : List Char → Option (List Char)} {line : List Char}

/-- What is read behind a line number. -/
theorem behindNumber_eq_some {s ds m : List Char} :
    (behindNumber f s).map Prod.fst = some (ds, m) ↔ ds ≠ [] ∧ (∀ c ∈ ds, isDigit c = true) ∧
      ∃ tail, s = ':' :: (ds ++ ':' :: tail) ∧ f (tail.dropWhile isBlank) = some m := by
  unfold behindNumber
  constructor
  · intro h
    obtain ⟨⟨_, rest⟩, hread, heq⟩ := Option.map_eq_some_iff.mp h
    obtain rfl := heq
    obtain ⟨⟨ds', behind⟩, hnumber, hread⟩ := Option.bind_eq_some_iff.mp hread
    obtain ⟨m', hm, heq⟩ := Option.map_eq_some_iff.mp hread
    obtain ⟨rfl, rfl⟩ := Prod.mk.inj (Prod.mk.inj heq).1
    obtain ⟨hne, hdigits, tail, rfl, rfl⟩ := lineNumber?_eq_some.mp hnumber
    exact ⟨hne, hdigits, tail, rfl, hm⟩
  · rintro ⟨hne, hdigits, tail, rfl, hm⟩
    rw [lineNumber?_eq_some.mpr ⟨hne, hdigits, tail, rfl, rfl⟩, Option.bind_some]
    simp only [hm, Option.map_some]

/-- A line number is one of those behind which `f` reads something. -/
theorem isSome_behindNumber {ds tail : List Char} (hne : ds ≠ [])
    (hdigits : ∀ c ∈ ds, isDigit c = true) :
    (behindNumber f (':' :: (ds ++ ':' :: tail))).isSome =
      (f (tail.dropWhile isBlank)).isSome := by
  rw [behindNumber, lineNumber?_eq_some.mpr ⟨hne, hdigits, tail, rfl, rfl⟩, Option.bind_some,
    Option.isSome_map]

/-- The first line number behind which `f` reads is the one behind which the line goes on the
longest. -/
theorem exists_longest_of_behindNumber {ds m : List Char}
    (h : firstForm? (behindNumber f) line = some (ds, m)) :
    ∃ tail, Numbered line tail ∧ f (tail.dropWhile isBlank) = some m ∧
      ∀ u, Numbered line u → (f (u.dropWhile isBlank)).isSome = true → u <:+ tail := by
  obtain ⟨s, hs, hread, hlongest⟩ := (firstForm?_eq_some_iff rfl).mp h
  obtain ⟨hne, hdigits, tail, rfl, hm⟩ := behindNumber_eq_some.mp hread
  refine ⟨tail, ⟨ds, hne, hdigits, hs⟩, hm, ?_⟩
  rintro u ⟨es, hes, hedigits, hu⟩ hread
  rw [← isSome_behindNumber hes hedigits] at hread
  exact suffix_of_numbers hdigits (hlongest _ hu hread)

/-- Nothing is read behind a line number when `f` reads behind none. -/
theorem firstForm?_behindNumber_eq_none : firstForm? (behindNumber f) line = none ↔
    ∀ u, Numbered line u → f (u.dropWhile isBlank) = none := by
  rw [firstForm?_eq_none_iff]
  constructor
  · rintro h u ⟨ds, hne, hdigits, hu⟩
    rw [← Option.not_isSome_iff_eq_none, ← isSome_behindNumber hne hdigits, h _ hu]
    simp
  · intro h s hs
    rw [Option.eq_none_iff_forall_not_mem]
    rintro ⟨⟨ds, m⟩, rest⟩ hread
    have hfst : (behindNumber f s).map Prod.fst = some (ds, m) := by
      rw [Option.mem_def.mp hread]
      rfl
    obtain ⟨hne, hdigits, tail, rfl, hm⟩ := behindNumber_eq_some.mp hfst
    exact absurd (hm.symm.trans (h tail ⟨ds, hne, hdigits, hs⟩)) (by simp)

end

/-! ## The message of a line -/

/-- What a line announces first holds all that it announces. -/
theorem exists_longest_of_announced {line ds m : List Char}
    (h : firstForm? announced? line = some (ds, m)) :
    ∃ t, Announces line t ∧ m = t.dropWhile isBlank ∧ ∀ u, Announces line u → u <:+ t := by
  rw [announced?_eq_behindNumber] at h
  obtain ⟨tail, htail, hread, hlongest⟩ := exists_longest_of_behindNumber h
  obtain ⟨⟨front, _, rest⟩, hphrase, rfl⟩ := Option.map_eq_some_iff.mp hread
  obtain ⟨t, ht, hrest, hall⟩ := exists_longest_of_phrase hphrase
  refine ⟨t, ⟨tail, htail, ht⟩, hrest, ?_⟩
  rintro u ⟨behind, hbehind, hu⟩
  have hsuffix : behind <:+ tail := by
    refine hlongest behind hbehind ?_
    rw [Option.isSome_map]
    exact isSome_leftmost?_of_phrased hu
  obtain ⟨p, hp, bs, hbs, hm⟩ := hu
  exact hall u ⟨p, hp, bs, hbs, hm.trans hsuffix⟩

/-- A line in which no announcement is read announces nothing. -/
theorem firstForm?_announced?_eq_none {line : List Char} :
    firstForm? announced? line = none ↔ ¬ ∃ message, Announces line message := by
  rw [announced?_eq_behindNumber, firstForm?_behindNumber_eq_none]
  constructor
  · rintro h ⟨message, tail, htail, hphrase⟩
    have hsome := isSome_leftmost?_of_phrased hphrase
    rw [← Option.isSome_map, h tail htail] at hsome
    exact absurd hsome (by simp)
  · intro h tail htail
    rw [Option.map_eq_none_iff, Option.eq_none_iff_forall_not_mem]
    rintro ⟨t, _, rest⟩ hread
    obtain ⟨m, hm, -⟩ := exists_longest_of_phrase hread
    exact h ⟨m, tail, htail, hm⟩

/-- The word `error` is found where it is mentioned, also behind the blanks at the head. -/
theorem hasForm_errorWord? {s : List Char} :
    hasForm errorWord? (s.dropWhile isBlank) = true ↔ MentionsError s := by
  rw [hasForm_iff]
  constructor
  · rintro ⟨u, hu, hread⟩
    rw [errorWord?, Option.isSome_map] at hread
    obtain ⟨rest, hrest⟩ := Option.isSome_iff_exists.mp hread
    obtain ⟨v, hv, rfl⟩ := exists_of_afterCaseless? hrest
    have htail : v ++ rest <:+ s := hu.trans (List.dropWhile_suffix _)
    exact ⟨v, hv, (List.prefix_append v rest).isInfix.trans htail.isInfix⟩
  · rintro ⟨w, hw, hmentioned⟩
    obtain ⟨c, v, rfl, hc⟩ : ∃ c v, w = c :: v ∧ isBlank c = false := by
      cases w with
      | nil => exact absurd hw (by decide)
      | cons c v =>
        refine ⟨c, v, rfl, ?_⟩
        have hfold : foldCase c = 'e' := (List.cons.inj hw).1
        have hpoints : ∀ n ∈ blankPoints, foldCase (Char.ofNat n) ≠ 'e' := by decide +kernel
        rw [← Bool.not_eq_true]
        intro hblank
        refine hpoints _ (mem_blankPoints_of_isBlank hblank) ?_
        rwa [Char.ofNat_toNat]
    obtain ⟨t, u, htu⟩ := (infix_dropWhile_iff hc).mpr hmentioned
    refine ⟨c :: v ++ u, ⟨t, by rw [← htu, List.append_assoc]⟩, ?_⟩
    rw [errorWord?, afterCaseless?_append hw]
    rfl

/-- The first line number behind which an error is mentioned is the one behind which the line goes
on the longest. -/
theorem exists_longest_of_mentioned {line ds m : List Char}
    (h : firstForm? mentioned? line = some (ds, m)) :
    ∃ tail, Numbered line tail ∧ MentionsError tail ∧ m = tail.dropWhile isBlank ∧
      ∀ u, Numbered line u → MentionsError u → u <:+ tail := by
  rw [mentioned?_eq_behindNumber] at h
  obtain ⟨tail, htail, hread, hlongest⟩ := exists_longest_of_behindNumber h
  rw [Option.ite_none_right_eq_some] at hread
  obtain ⟨herror, heq⟩ := hread
  refine ⟨tail, htail, hasForm_errorWord?.mp herror, (Option.some.inj heq).symm, ?_⟩
  intro u hu hmentions
  refine hlongest u hu ?_
  rw [if_pos (hasForm_errorWord?.mpr hmentions)]
  rfl

/-- A line in which no mention of an error is read behind a line number is not recognised. -/
theorem firstForm?_mentioned?_eq_none {line : List Char} :
    firstForm? mentioned? line = none ↔ ¬ Recognised line := by
  rw [mentioned?_eq_behindNumber, firstForm?_behindNumber_eq_none]
  unfold Recognised
  rw [not_exists]
  refine forall_congr' fun tail => ?_
  rw [not_and, ite_eq_right_iff, hasForm_errorWord?]
  simp

/-- A text that goes on behind a phrase mentions an error. -/
theorem Phrased.mentionsError {tail message : List Char} (h : Phrased tail message) :
    MentionsError tail := by
  obtain ⟨p, hp, bs, -, hmessage⟩ := h
  refine ⟨"error".toList, by decide, ?_⟩
  have hword : "error".toList <:+: p.toList := by
    rcases List.mem_pair.mp hp with rfl | rfl <;> exact (by decide : _ <:+ _).isInfix
  exact hword.trans ((List.prefix_append _ _).isInfix.trans hmessage.isInfix)

/-- A line states no finding exactly when it is not recognised. -/
theorem finding?_eq_none_iff {line : List Char} : finding? line = none ↔ ¬ Recognised line := by
  rw [finding?, Option.map_eq_none_iff, Option.or_eq_none_iff, firstForm?_announced?_eq_none,
    firstForm?_mentioned?_eq_none, and_iff_right_iff_imp]
  rintro hnone ⟨message, tail, htail, hphrase⟩
  exact hnone ⟨tail, htail, hphrase.mentionsError⟩

/-- The words of the summary stand in the rest of a text also when the blanks around it are
dropped. -/
theorem summaryPhrase_infix_strip {s : List Char} :
    summaryPhrase.toList <:+: strip (s.dropWhile isBlank) ↔ summaryPhrase.toList <:+: s := by
  have hword : summaryPhrase.toList = 'f' :: "ails to validate".toList := by decide
  have hend : 'f' :: "ails to validate".toList = "fails to validat".toList ++ ['e'] := by decide
  rw [hword, infix_strip_iff (by decide) (by decide) hend, infix_dropWhile_iff (by decide)]

/-- The message of a line holds the words of the summary exactly when the line quotes them. -/
theorem summary_infix_iff {line ds message : List Char}
    (h : finding? line = some (ds, message)) :
    summaryPhrase.toList <:+: message ↔ QuotesSummary line := by
  obtain ⟨⟨es, m⟩, hread, heq⟩ := Option.map_eq_some_iff.mp h
  obtain ⟨rfl, rfl⟩ := Prod.mk.inj heq
  unfold QuotesSummary
  rcases Option.or_eq_some_iff.mp hread with hannounced | ⟨hnone, hmentioned⟩
  · obtain ⟨t, ht, rfl, hlongest⟩ := exists_longest_of_announced hannounced
    rw [summaryPhrase_infix_strip, or_iff_left fun hnot => hnot.1 ⟨t, ht⟩]
    constructor
    · exact fun hsummary => ⟨t, ht, hsummary⟩
    · rintro ⟨u, hu, hsummary⟩
      exact hsummary.trans (hlongest u hu).isInfix
  · have hsilent := firstForm?_announced?_eq_none.mp hnone
    obtain ⟨tail, htail, hmentions, rfl, hlongest⟩ := exists_longest_of_mentioned hmentioned
    rw [summaryPhrase_infix_strip, or_iff_right fun hsome => hsilent (hsome.imp fun _ => And.left)]
    constructor
    · exact fun hsummary => ⟨hsilent, tail, htail, hmentions, hsummary⟩
    · rintro ⟨-, u, hu, herror, hsummary⟩
      exact hsummary.trans (hlongest u hu herror).isInfix

/-! ## Lines of the validator -/

/-- What is announced with a text behind it was announced before that text. -/
theorem announces_append_iff {s m t : List Char} :
    Announces (s ++ t) (m ++ t) ↔ Announces s m := by
  constructor
  · rintro ⟨tail, ⟨ds, hne, hdigits, htail⟩, p, hp, bs, hbs, front, rfl⟩
    have hnumber : ':' :: (ds ++ ':' :: (front ++ (p.toList ++ (bs ++ ':' :: m)))) <:+ s :=
      List.suffix_append_self_iff.mp (by simpa using htail)
    exact ⟨_, ⟨ds, hne, hdigits, hnumber⟩, p, hp, bs, hbs, List.suffix_append _ _⟩
  · rintro ⟨tail, ⟨ds, hne, hdigits, htail⟩, p, hp, bs, hbs, hmessage⟩
    refine ⟨tail ++ t, ⟨ds, hne, hdigits, ?_⟩, p, hp, bs, hbs, ?_⟩
    · simpa using List.suffix_append_self_iff.mpr htail
    · simpa using List.suffix_append_self_iff.mpr hmessage

/-- What a line announces stands at its end. -/
theorem Announces.suffix {s m : List Char} (h : Announces s m) : m <:+ s := by
  obtain ⟨tail, ⟨ds, -, -, htail⟩, p, -, bs, -, hmessage⟩ := h
  have hm : m <:+ tail :=
    (List.suffix_cons ':' m).trans ((List.suffix_append bs _).trans
      ((List.suffix_append p.toList _).trans hmessage))
  have hs : tail <:+ s :=
    (List.suffix_cons ':' tail).trans ((List.suffix_append ds _).trans
      ((List.suffix_cons ':' _).trans htail))
  exact hm.trans hs

/-- A line of the form `path:digits: element name: Schemas validity error : message`. -/
structure ValidityLine where
  /-- The path of the document. -/
  path : List Char
  /-- The digits of the line number. -/
  digits : List Char
  /-- The name of the element. -/
  element : List Char
  /-- The text behind the last colon of the announcement. -/
  message : List Char
  /-- There is a digit. -/
  digits_ne : digits ≠ []
  /-- There are only digits. -/
  digits_ok : ∀ c ∈ digits, isDigit c = true

namespace ValidityLine

/-- The text before the colon behind the element. -/
def lead (f : ValidityLine) : List Char :=
  f.path ++ ':' :: (f.digits ++ ':' :: ' ' :: ("element ".toList ++ f.element))

/-- The text of the line. -/
def chars (f : ValidityLine) : List Char :=
  f.lead ++ ':' :: ' ' ::
    ("Schemas validity error".toList ++ ' ' :: ':' :: ' ' :: f.message)

/-- The words of the summary stand in the message, or in what the text before it announces by
itself. -/
def QuotesSummary (f : ValidityLine) : Prop :=
  summaryPhrase.toList <:+: f.message ∨
    ∃ message, Announces f.lead message ∧ summaryPhrase.toList <:+: message

section

variable (f : ValidityLine)

/-- The line announces its message. -/
theorem announces_chars : Announces f.chars (' ' :: f.message) := by
  have hnumber : Numbered f.chars (' ' :: ("element ".toList ++ f.element ++ ':' :: ' ' ::
      ("Schemas validity error".toList ++ ' ' :: ':' :: ' ' :: f.message))) :=
    ⟨f.digits, f.digits_ne, f.digits_ok, f.path, by
      simp only [chars, lead, List.append_assoc, List.cons_append]⟩
  refine ⟨_, hnumber, "Schemas validity error", List.mem_cons_self, [' '],
    List.forall_mem_singleton.mpr rfl, ?_⟩
  exact ⟨' ' :: ("element ".toList ++ f.element ++ [':', ' ']), by simp⟩

/-- The words of the summary stand in the part of the line behind the element only where they stand
in the message. -/
theorem infix_message {s : List Char} (h : summaryPhrase.toList <:+: ' ' ::
    ("Schemas validity error".toList ++ ' ' :: ':' :: ' ' :: s)) :
    summaryPhrase.toList <:+: s := by
  have hcut : ' ' :: ("Schemas validity error".toList ++ ' ' :: ':' :: ' ' :: s) =
      " Schemas validity error ".toList ++ ':' :: (' ' :: s) := by
    have hword : " Schemas validity error ".toList =
        ' ' :: ("Schemas validity error".toList ++ [' ']) := by decide
    rw [hword]
    simp
  rw [hcut] at h
  rcases infix_of_infix_append_cons (by decide) h with hword | hmessage
  · exact absurd hword (by decide)
  · rcases List.infix_cons_iff.mp hmessage with hbegins | hmessage
    · obtain ⟨t, ht⟩ := hbegins
      have hfirst : summaryPhrase.toList = 'f' :: "ails to validate".toList := by decide
      rw [hfirst] at ht
      exact absurd (List.cons.inj ht).1 (by decide)
    · exact hmessage

/-- What a line of the form quotes is what its parts quote. -/
theorem quotesSummary_chars_iff : Report.QuotesSummary f.chars ↔ f.QuotesSummary := by
  have hown := f.announces_chars
  rw [Report.QuotesSummary, or_iff_left fun hnot => hnot.1 ⟨_, hown⟩]
  constructor
  · rintro ⟨m, hm, hsummary⟩
    -- What is announced begins behind the element, or else before it, and then the text before the
    -- colon announces the part of it that stands there.
    rcases List.suffix_or_suffix_of_suffix hm.suffix (List.suffix_append f.lead _) with
      hbehind | ⟨t, rfl⟩
    · have hrest := infix_of_infix_append_cons (u := []) (by decide)
        (hsummary.trans hbehind.isInfix)
      rcases hrest with hnil | hrest
      · exact absurd (List.infix_nil.mp hnil) (by decide)
      · exact Or.inl (infix_message hrest)
    · rcases infix_of_infix_append_cons (by decide) hsummary with ht | hrest
      · exact Or.inr ⟨t, announces_append_iff.mp hm, ht⟩
      · exact Or.inl (infix_message hrest)
  · rintro (hmessage | ⟨m, hm, hsummary⟩)
    · exact ⟨_, hown, hmessage.trans (List.suffix_cons ' ' f.message).isInfix⟩
    · exact ⟨_, announces_append_iff.mpr hm, List.infix_append_of_infix_left hsummary⟩

/-- A line of the form is recognised. -/
theorem recognised_chars : Recognised f.chars := by
  obtain ⟨tail, htail, hphrase⟩ := f.announces_chars
  exact ⟨tail, htail, hphrase.mentionsError⟩

end

end ValidityLine

/-! ## Logs -/

/-- What the reader does with a line of a log. -/
structure Treats (line : List Char) (stated : Option Issue) : Prop where
  /-- Nothing is stated for a line that is not recognised or that quotes the summary. -/
  eq_none_iff : stated = none ↔ ¬ Recognised line ∨ QuotesSummary line
  /-- A line of the form of the validator is lost only to such a quotation. -/
  validity : ∀ f : ValidityLine, f.chars = line → (stated = none ↔ f.QuotesSummary)
  /-- What is stated is an error, found by the validation against the schema. -/
  source : ∀ i ∈ stated, i.source = .xsd ∧ i.severity = .error
  /-- The issue that is stated for a line of that form ends with its message. -/
  message : ∀ i ∈ stated, ∀ f : ValidityLine, f.chars = line →
    strip f.message <:+ i.message.toList

/-- The message of a line of the form of the validator ends with the message that it announces. -/
theorem suffix_of_finding?_chars {f : ValidityLine} {ds message : List Char}
    (h : finding? f.chars = some (ds, message)) : strip f.message <:+ message := by
  obtain ⟨⟨es, m⟩, hread, heq⟩ := Option.map_eq_some_iff.mp h
  obtain ⟨rfl, rfl⟩ := Prod.mk.inj heq
  have hown := f.announces_chars
  rcases Option.or_eq_some_iff.mp hread with hannounced | ⟨hnone, -⟩
  · obtain ⟨t, -, rfl, hlongest⟩ := exists_longest_of_announced hannounced
    rw [strip_dropWhile]
    exact strip_suffix_strip ((List.suffix_cons ' ' f.message).trans (hlongest _ hown))
  · exact absurd ⟨_, hown⟩ (firstForm?_announced?_eq_none.mp hnone)

/-- What the reader states for a line with a finding. -/
theorem stated_of_finding? {line ds message : List Char} {stated : Option Issue}
    (hfinding : finding? line = some (ds, message)) (h : logIssue? line = .ok stated) :
    (stated = none ↔ summaryPhrase.toList <:+: message) ∧
      ∀ i ∈ stated, i.source = .xsd ∧ i.severity = .error ∧ i.message = String.ofList message := by
  rw [logIssue?, hfinding] at h
  obtain ⟨n, -, rfl⟩ := map_eq_ok.mp h
  rw [← occurs_iff]
  cases occurs summaryPhrase.toList message <;> simp

/-- What is stated for a line, and when nothing is. -/
theorem treats_of_logIssue? {line : List Char} {stated : Option Issue}
    (h : logIssue? line = .ok stated) : Treats line stated := by
  cases hfinding : finding? line with
  | none =>
    have hunknown : ¬ Recognised line := finding?_eq_none_iff.mp hfinding
    rw [logIssue?, hfinding] at h
    obtain rfl : none = stated := Except.ok.inj h
    have hform : ∀ f : ValidityLine, f.chars ≠ line := fun f heq =>
      hunknown (heq ▸ f.recognised_chars)
    exact ⟨iff_of_true rfl (Or.inl hunknown), fun f heq => absurd heq (hform f), by simp, by simp⟩
  | some found =>
    obtain ⟨ds, message⟩ := found
    have hknown : Recognised line := by
      rw [← not_not (a := Recognised line), ← finding?_eq_none_iff, hfinding]
      simp
    obtain ⟨hnone, hissue⟩ := stated_of_finding? hfinding h
    rw [summary_infix_iff hfinding] at hnone
    refine ⟨?_, ?_, fun i hi => ⟨(hissue i hi).1, (hissue i hi).2.1⟩, ?_⟩
    · rw [hnone, or_iff_right (not_not.mpr hknown)]
    · rintro f rfl
      rw [hnone, f.quotesSummary_chars_iff]
    · rintro i hi f rfl
      rw [(hissue i hi).2.2, String.toList_ofList]
      exact suffix_of_finding?_chars hfinding

/-- Each line of a log is treated on its own. -/
theorem treats_of_logIssues {log : String}
    (hshort : ∀ ds ∈ logRows log, ds.length ≤ TooLong.limit) :
    ∃ found : List (Option Issue), logIssues log = .ok (found.filterMap id) ∧
      List.Forall₂ Treats (anyLines log.toList) found := by
  obtain ⟨issues, hissues⟩ := hasResult_logIssues.mpr hshort
  obtain ⟨found, hfound, rfl⟩ := map_eq_ok.mp hissues
  have htreats := (forall₂_mapM_eq_ok hfound).imp fun _ _ h => treats_of_logIssue? h
  exact ⟨found, hissues, htreats⟩

/-- A finding about a value of a document, which happens to be the words of the summary. -/
def quotingLine : ValidityLine where
  path := "a.xml".toList
  digits := ['5']
  element := "Date".toList
  message := "Element 'Date': 'fails to validate' is not a valid value of type 'xs:date'.".toList
  digits_ne := by decide
  digits_ok := List.forall_mem_singleton.mpr rfl

/-- A log with that finding and the summary. -/
def quotingLog : String :=
  String.ofList (quotingLine.chars ++ '\n' :: "a.xml fails to validate\n".toList)

/-- The finding and the summary are the lines of the log. -/
theorem anyLines_quotingLog :
    anyLines quotingLog.toList = [quotingLine.chars, "a.xml fails to validate".toList] := by
  rw [quotingLog, String.toList_ofList]
  decide +kernel

/-- The finding is treated like the summary, and nothing is left of the log. -/
theorem treats_of_logIssues_quotingLog :
    (∀ ds ∈ logRows quotingLog, ds.length ≤ TooLong.limit) ∧
      anyLines quotingLog.toList = [quotingLine.chars, "a.xml fails to validate".toList] ∧
      logIssues quotingLog = .ok [] ∧
      ∃ found : List (Option Issue), logIssues quotingLog = .ok (found.filterMap id) ∧
        List.Forall₂ Treats (anyLines quotingLog.toList) found := by
  have hrows : ∀ ds ∈ logRows quotingLog, ds.length ≤ TooLong.limit := by
    rw [logRows, anyLines_quotingLog]
    decide +kernel
  have hnone : logIssues quotingLog = .ok [] := by
    rw [logIssues, anyLines_quotingLog]
    decide +kernel
  exact ⟨hrows, anyLines_quotingLog, hnone, treats_of_logIssues hrows⟩

end StylesheetTrace.Report
