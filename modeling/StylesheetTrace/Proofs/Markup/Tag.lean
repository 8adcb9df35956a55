import StylesheetTrace.Markup.Tag
import StylesheetTrace.Proofs.Text.Scan

/-!
# Qualified names and the tags that bear them

A qualified name is an optional namespace prefix and a local name. Behind the `<` or `</` of a tag
that bears one, `qualified` reads a local name exactly when it is that of the tag
(`qualified_append`), and goes on where the name of the tag ends: a name that is only the beginning
or the end of the tag's, or its prefix, is never read. The readers of tags begin their forms with
`<` and take at least one character, so that a text without `<` holds none of them.
-/

namespace StylesheetTrace.Markup

open StylesheetTrace.Text

/-! ## Names -/

/-- A local name. -/
structure LocalName where
  /-- The first character. -/
  first : Char
  /-- The characters behind it. -/
  rest : List Char
  /-- The name begins with an ASCII letter or `_`. -/
  first_ok : isNameStart first = true
  /-- It goes on with characters of a prefix. -/
  rest_ok : ∀ c ∈ rest, isPrefixChar c = true
  deriving DecidableEq

/-- A namespace prefix. -/
structure Qualifier where
  /-- The characters of the prefix. -/
  chars : List Char
  /-- The prefix is not empty. -/
  ne_nil : chars ≠ []
  /-- It holds nothing but characters of a prefix. -/
  chars_ok : ∀ c ∈ chars, isPrefixChar c = true
  deriving DecidableEq

/-- The name of an element. -/
structure QName where
  /-- The namespace prefix, if there is one. -/
  qualifier : Option Qualifier
  /-- The local name. -/
  name : LocalName
  deriving DecidableEq

/-- The characters of a local name. -/
def LocalName.chars (n : LocalName) : List Char := n.first :: n.rest

/-- A local name as a text. -/
def LocalName.text (n : LocalName) : String := String.ofList n.chars

/-- The prefix with its colon, if there is one. -/
def QName.front (q : QName) : List Char :=
  match q.qualifier with
  | none => []
  | some p => p.chars ++ [':']

/-- The characters of a qualified name. -/
def QName.chars (q : QName) : List Char := q.front ++ q.name.chars

/-- A qualified name as a text. -/
def QName.text (q : QName) : String := String.ofList q.chars

/-- The prefix of the name, if there is one, is made of the given characters. -/
def QName.qualifiedBy (q : QName) (ok : Char → Bool) : Bool :=
  q.qualifier.all fun p => p.chars.all ok

/-- The local name is `n`, and the prefix is made of the given characters. -/
def QName.isNamed (q : QName) (ok : Char → Bool) (n : List Char) : Bool :=
  n == q.name.chars && q.qualifiedBy ok

/-- A local name is given by its characters. -/
theorem LocalName.chars_inj {m n : LocalName} : m.chars = n.chars ↔ m = n := by
  constructor
  · intro h
    obtain ⟨hfirst, hrest⟩ := List.cons.inj h
    cases m
    cases n
    simp_all
  · rintro rfl
    rfl

/-- A local name is given by its text. -/
theorem LocalName.text_inj {m n : LocalName} : m.text = n.text ↔ m = n := by
  rw [LocalName.text, LocalName.text, String.ofList_inj, LocalName.chars_inj]

/-- A character of a prefix lies among the letters, the digits, `-`, `.` and `_` of ASCII. -/
theorem toNat_of_isPrefixChar {c : Char} (h : isPrefixChar c = true) :
    (c.toNat = 45 ∨ c.toNat = 46 ∨ c.toNat = 95) ∨ (48 ≤ c.toNat ∧ c.toNat ≤ 57) ∨
      (65 ≤ c.toNat ∧ c.toNat ≤ 90) ∨ (97 ≤ c.toNat ∧ c.toNat ≤ 122) := by
  have hupper : c.isUpper = true → 65 ≤ c.toNat ∧ c.toNat ≤ 90 := fun h =>
    ⟨UInt32.le_iff_toNat_le.mp (of_decide_eq_true h).1,
      UInt32.le_iff_toNat_le.mp (of_decide_eq_true h).2⟩
  have hlower : c.isLower = true → 97 ≤ c.toNat ∧ c.toNat ≤ 122 := fun h =>
    have hrange := (Bool.and_eq_true_iff).mp h
    ⟨UInt32.le_iff_toNat_le.mp (of_decide_eq_true hrange.1),
      UInt32.le_iff_toNat_le.mp (of_decide_eq_true hrange.2)⟩
  have hdigit : c.isDigit = true → 48 ≤ c.toNat ∧ c.toNat ≤ 57 := fun h =>
    have hrange := (Bool.and_eq_true_iff).mp h
    ⟨UInt32.le_iff_toNat_le.mp (of_decide_eq_true hrange.1),
      UInt32.le_iff_toNat_le.mp (of_decide_eq_true hrange.2)⟩
  have halpha : c.isAlpha = true → c.isUpper = true ∨ c.isLower = true := fun h =>
    Bool.or_eq_true_iff.mp h
  simp only [isPrefixChar, Char.isAlphanum, Bool.or_eq_true, beq_iff_eq] at h
  rcases h with (((h | h) | rfl) | rfl) | rfl
  · rcases halpha h with h | h
    · exact Or.inr (Or.inr (Or.inl (hupper h)))
    · exact Or.inr (Or.inr (Or.inr (hlower h)))
  · exact Or.inr (Or.inl (hdigit h))
  · exact Or.inl (Or.inr (Or.inr rfl))
  · exact Or.inl (Or.inr (Or.inl rfl))
  · exact Or.inl (Or.inl rfl)

/-- A character of a prefix is no colon. -/
theorem ne_colon_of_isPrefixChar {c : Char} (h : isPrefixChar c = true) : c ≠ ':' := by
  rintro rfl
  exact absurd h (by decide)

/-- A character of a prefix is no blank. -/
theorem isBlank_eq_false_of_isPrefixChar {c : Char} (h : isPrefixChar c = true) :
    isBlank c = false := by
  have hc := toNat_of_isPrefixChar h
  unfold isBlank
  simp only [decide_eq_false_iff_not]
  omega

/-- A character of a qualified name ends no name. -/
theorem endsName_cons_eq_false {c : Char} (h : isPrefixChar c = true ∨ c = ':') (s : List Char) :
    endsName (c :: s) = false := by
  rcases h with h | rfl
  · have hc := toNat_of_isPrefixChar h
    have hne : ∀ d : Char, d.toNat = 47 ∨ d.toNat = 62 → c ≠ d := by
      rintro d hd rfl
      omega
    simp [endsName, isBlank_eq_false_of_isPrefixChar h, hne '/' (by decide), hne '>' (by decide)]
  · rfl

/-- Where a name ends, no character of a qualified name follows. -/
theorem not_nameChar_of_endsName {s : List Char} (hs : endsName s = true) :
    ∀ c ∈ s.head?, isPrefixChar c = false ∧ c ≠ ':' := by
  intro c hc
  cases s with
  | nil => simp at hc
  | cons d s =>
    obtain rfl : d = c := by simpa using hc
    have hnot : ¬ (isPrefixChar d = true ∨ d = ':') := by
      intro h
      rw [endsName_cons_eq_false h] at hs
      exact Bool.false_ne_true hs
    rw [not_or] at hnot
    exact ⟨by simpa using hnot.1, hnot.2⟩

/-- A character that may begin a name is one of a prefix. -/
theorem isPrefixChar_of_isNameStart {c : Char} (h : isNameStart c = true) :
    isPrefixChar c = true := by
  simp only [isNameStart, isPrefixChar, Char.isAlphanum, Bool.or_eq_true] at h ⊢
  rcases h with h | h
  · exact Or.inl (Or.inl (Or.inl (Or.inl h)))
  · exact Or.inl (Or.inl (Or.inr h))

/-- A digit is a character of a prefix. -/
theorem isPrefixChar_of_isDigit {c : Char} (h : c.isDigit = true) : isPrefixChar c = true := by
  simp [isPrefixChar, Char.isAlphanum, h]

/-- A character of a prefix without dots is one of a prefix. -/
theorem isPrefixChar_of_isPlainPrefixChar {c : Char} (h : isPlainPrefixChar c = true) :
    isPrefixChar c = true := by
  simp only [isPlainPrefixChar, isPrefixChar, Bool.or_eq_true] at h ⊢
  rcases h with (h | h) | h
  · exact Or.inl (Or.inl (Or.inl h))
  · exact Or.inl (Or.inl (Or.inr h))
  · exact Or.inr h

/-- A local name is made of characters of a prefix. -/
theorem LocalName.isPrefixChar_of_mem {n : LocalName} {c : Char} (h : c ∈ n.chars) :
    isPrefixChar c = true := by
  rcases List.mem_cons.mp h with rfl | h
  · exact isPrefixChar_of_isNameStart n.first_ok
  · exact n.rest_ok c h

/-- A character that is none of a prefix stands in no local name. -/
theorem LocalName.not_mem_chars {d : Char} (hd : isPrefixChar d = false) (n : LocalName) :
    d ∉ n.chars := by
  intro h
  rw [LocalName.isPrefixChar_of_mem h] at hd
  exact absurd hd (by decide)

/-- A character that is none of a prefix stands in no prefix. -/
theorem Qualifier.not_mem_chars {d : Char} (hd : isPrefixChar d = false) (p : Qualifier) :
    d ∉ p.chars := by
  intro h
  rw [p.chars_ok d h] at hd
  exact absurd hd (by decide)

/-- A qualified name is made of characters of a prefix and colons. -/
theorem QName.mem_chars {q : QName} {c : Char} (h : c ∈ q.chars) :
    isPrefixChar c = true ∨ c = ':' := by
  rcases List.mem_append.mp h with h | h
  · unfold QName.front at h
    split at h
    · exact absurd h List.not_mem_nil
    · rename_i p _
      rcases List.mem_append.mp h with h | h
      · exact Or.inl (p.chars_ok c h)
      · exact Or.inr (List.mem_singleton.mp h)
  · exact Or.inl (LocalName.isPrefixChar_of_mem h)

/-- A qualified name begins with a character of a prefix. -/
theorem QName.chars_eq_cons (q : QName) : ∃ c t, q.chars = c :: t ∧ isPrefixChar c = true := by
  obtain ⟨qualifier, name⟩ := q
  cases qualifier with
  | none => exact ⟨name.first, name.rest, rfl, isPrefixChar_of_isNameStart name.first_ok⟩
  | some p =>
    obtain ⟨c, t, hp⟩ := List.exists_cons_of_ne_nil p.ne_nil
    refine ⟨c, t ++ ':' :: name.chars, ?_, p.chars_ok c (hp ▸ List.mem_cons_self)⟩
    simp [QName.chars, QName.front, hp]

/-- What holds only of characters of a prefix does not hold of any other. -/
theorem eq_false_of_isPrefixChar {ok : Char → Bool}
    (hok : ∀ c, ok c = true → isPrefixChar c = true) {d : Char} (hd : isPrefixChar d = false) :
    ok d = false := by
  rw [← Bool.not_eq_true] at hd ⊢
  exact fun h => hd (hok d h)

/-- A character that is neither one of a prefix nor a colon stands in no qualified name. -/
theorem QName.not_mem_chars {d : Char} (hd : isPrefixChar d = false) (hcolon : d ≠ ':')
    (q : QName) : d ∉ q.chars := by
  intro h
  rcases QName.mem_chars h with h | h
  · rw [hd] at h
    exact Bool.false_ne_true h
  · exact hcolon h

/-- The characters of a name do not begin a tag. -/
theorem QName.lt_not_mem (q : QName) : '<' ∉ q.chars :=
  QName.not_mem_chars (by decide) (by decide) q

/-- Behind its last colon a qualified name has its local name. -/
theorem QName.takeWhile_reverse (q : QName) :
    q.chars.reverse.takeWhile (· != ':') = q.name.chars.reverse := by
  have hname : ∀ c ∈ q.name.chars.reverse, (c != ':') = true := by
    intro c hc
    rw [bne_iff_ne]
    exact ne_colon_of_isPrefixChar (LocalName.isPrefixChar_of_mem (List.mem_reverse.mp hc))
  have hfront : ∀ c ∈ q.front.reverse.head?, (c != ':') = false := by
    unfold QName.front
    cases q.qualifier <;> simp
  rw [QName.chars, List.reverse_append, takeWhile_append_of_head hfront,
    List.takeWhile_eq_self_iff]
  exact hname

/-- Qualified names with the same characters have the same local name. -/
theorem QName.name_eq_of_chars_eq {q r : QName} (h : q.chars = r.chars) : q.name = r.name := by
  rw [← LocalName.chars_inj, ← List.reverse_inj, ← q.takeWhile_reverse, h, r.takeWhile_reverse]

/-! ## Reading a name -/

/-- A text that may be looked for as a name: it is not empty, and none of its characters is a colon
or ends a name. -/
def NameLike (n : List Char) : Prop :=
  n ≠ [] ∧ ∀ c ∈ n, endsName [c] = false ∧ c ≠ ':'

/-- A local name may be looked for as a name. -/
theorem LocalName.nameLike (n : LocalName) : NameLike n.chars := by
  refine ⟨List.cons_ne_nil _ _, fun c hc => ?_⟩
  have hchar := LocalName.isPrefixChar_of_mem hc
  exact ⟨endsName_cons_eq_false (Or.inl hchar) [], ne_colon_of_isPrefixChar hchar⟩

section

variable {β : Type} {n : List Char} {next : List Char → Option β}

/-- A name read at the head of characters of a prefix, behind which a name ends, is all of them. -/
theorem after?_bind_append (hn : ∀ c ∈ n, endsName [c] = false)
    (hnext : ∀ c s, isPrefixChar c = true ∨ c = ':' → next (c :: s) = none) {l rest : List Char}
    (hl : ∀ c ∈ l, isPrefixChar c = true ∨ c = ':') (hrest : endsName rest = true) :
    (after? n (l ++ rest)).bind next = if n = l then next rest else none := by
  by_cases heq : n = l
  · rw [if_pos heq, heq, after?_append]
    rfl
  · rw [if_neg heq, Option.bind_eq_none_iff]
    intro tail htail
    rcases List.append_eq_append_iff.mp (after?_eq_some.mp htail) with ⟨a, hna, ha⟩ | ⟨a, hla, ha⟩
    · -- The name goes on behind the characters: into one that ends names.
      cases a with
      | nil => exact absurd (by rw [hna, List.append_nil]) heq
      | cons c a =>
        have hc := hn c (hna ▸ List.mem_append_right l List.mem_cons_self)
        rw [ha] at hrest
        exact absurd (hc.symm.trans hrest) Bool.false_ne_true
    · -- The name ends inside the characters, where nothing is read next.
      cases a with
      | nil => exact absurd (by rw [hla, List.append_nil]) heq
      | cons c a =>
        rw [ha, List.cons_append]
        exact hnext c _ (hl c (hla ▸ List.mem_append_right n List.mem_cons_self))

/-- A run of the given characters is skipped with the colon behind it. -/
theorem afterPrefix?_append {ok : Char → Bool} (hcolon : ok ':' = false) {p : List Char}
    (hne : p ≠ []) (hp : ∀ c ∈ p, ok c = true) (s : List Char) :
    afterPrefix? ok (p ++ ':' :: s) = some s := by
  have hhead : ∀ c ∈ (':' :: s).head?, ok c = false := head?_cons_eq_false hcolon s
  unfold afterPrefix?
  rw [dropWhile_append_of_head hhead, takeWhile_append_of_head hhead,
    List.dropWhile_eq_nil_iff.mpr hp, List.takeWhile_eq_self_iff.mpr hp]
  simp [hne]

/-- A run of the given characters is no prefix where it is not a colon that stands behind it. -/
theorem afterPrefix?_eq_none {ok : Char → Bool} {p s : List Char} (hp : ∀ c ∈ p, ok c = true)
    (hs : ∀ c ∈ s.head?, ok c = false ∧ c ≠ ':') : afterPrefix? ok (p ++ s) = none := by
  unfold afterPrefix?
  rw [dropWhile_append_of_head fun c hc => (hs c hc).1, List.dropWhile_eq_nil_iff.mpr hp,
    List.nil_append]
  split
  · exact absurd rfl (hs ':' rfl).2
  · rfl

/-- A local name is read where no further character of a name stands behind it. -/
theorem name?_append (l : LocalName) {s : List Char} (hs : ∀ c ∈ s.head?, isPrefixChar c = false) :
    name? (l.chars ++ s) = some (l.chars, s) := by
  unfold name? LocalName.chars
  rw [List.cons_append, word?, if_pos l.first_ok, takeWhile_append_of_head hs,
    dropWhile_append_of_head hs, List.takeWhile_eq_self_iff.mpr l.rest_ok,
    List.dropWhile_eq_nil_iff.mpr l.rest_ok]
  rfl

/-- A prefix and its colon are skipped when the prefix is made of the given characters. -/
theorem afterPrefix?_qualifier {ok : Char → Bool} (hcolon : ok ':' = false) (p : Qualifier)
    (s : List Char) :
    afterPrefix? ok (p.chars ++ ':' :: s) = if p.chars.all ok then some s else none := by
  by_cases hall : p.chars.all ok = true
  · rw [if_pos hall, afterPrefix?_append hcolon p.ne_nil (List.all_eq_true.mp hall)]
  · rw [if_neg hall]
    unfold afterPrefix?
    rw [dropWhile_append_of_head (head?_cons_eq_false hcolon s)]
    cases hdrop : p.chars.dropWhile ok with
    | nil => exact absurd (List.all_eq_true.mpr (List.dropWhile_eq_nil_iff.mp hdrop)) hall
    | cons c t =>
      -- The run ends inside the prefix, where no colon stands.
      have hmem : c ∈ p.chars :=
        (List.dropWhile_suffix ok).subset (hdrop ▸ List.mem_cons_self)
      have hc := ne_colon_of_isPrefixChar (p.chars_ok c hmem)
      rw [List.cons_append]
      split
      · rename_i heq
        exact absurd (List.cons.inj heq).1 hc
      · rfl

/-- A local name behind which a name ends has no prefix. -/
theorem afterPrefix?_name {ok : Char → Bool} (hok : ∀ c, ok c = true → isPrefixChar c = true)
    (l : LocalName) {rest : List Char} (hrest : endsName rest = true) :
    afterPrefix? ok (l.chars ++ rest) = none := by
  have hhead := not_nameChar_of_endsName hrest
  have hstop : ∀ c ∈ rest.head?, ok c = false := fun c hc =>
    eq_false_of_isPrefixChar hok (hhead c hc).1
  -- Behind the run no colon follows, be it that the run ends inside the name or with it.
  have hcolon : ∀ c t, l.chars.dropWhile ok ++ rest = c :: t → c ≠ ':' := by
    intro c t heq
    cases hdrop : l.chars.dropWhile ok with
    | nil =>
      rw [hdrop, List.nil_append] at heq
      exact (hhead c (by simp [heq])).2
    | cons d u =>
      rw [hdrop, List.cons_append] at heq
      obtain rfl := (List.cons.inj heq).1
      have hmem : d ∈ l.chars := (List.dropWhile_suffix ok).subset (hdrop ▸ List.mem_cons_self)
      exact ne_colon_of_isPrefixChar (LocalName.isPrefixChar_of_mem hmem)
  unfold afterPrefix?
  rw [dropWhile_append_of_head hstop]
  split
  · rename_i heq
    exact absurd rfl (hcolon _ _ heq)
  · rfl

/-- A qualified name with a prefix goes on behind the colon with its local name. -/
theorem QName.chars_some (p : Qualifier) (name : LocalName) (rest : List Char) :
    (⟨some p, name⟩ : QName).chars ++ rest = p.chars ++ ':' :: (name.chars ++ rest) := by
  simp [QName.chars, QName.front]

/-- The prefix of a qualified name is skipped, if there is one. -/
theorem afterPrefix?_qname (q : QName) {rest : List Char} (hrest : endsName rest = true) :
    afterPrefix? isPrefixChar (q.chars ++ rest) =
      q.qualifier.map fun _ => q.name.chars ++ rest := by
  obtain ⟨qualifier, name⟩ := q
  cases qualifier with
  | none => exact afterPrefix?_name (fun _ h => h) name hrest
  | some p =>
    have hall : p.chars.all isPrefixChar = true := List.all_eq_true.mpr p.chars_ok
    rw [QName.chars_some, afterPrefix?_qualifier (by decide), if_pos hall]
    rfl

/-- No prefix is skipped where a slash follows the `<`. -/
theorem afterPrefix?_slash {ok : Char → Bool} (hslash : ok '/' = false) (s : List Char) :
    afterPrefix? ok ('/' :: s) = none := by
  unfold afterPrefix?
  rw [List.dropWhile_cons_of_neg (by simp [hslash])]
  rfl

/-- Behind the `<` or `</` of a tag a name is read exactly when it is the local name of the tag and
the prefix may be skipped. -/
theorem qualified_append {ok : Char → Bool} (hok : ∀ c, ok c = true → isPrefixChar c = true)
    (hn : NameLike n) (hnext : ∀ c s, isPrefixChar c = true ∨ c = ':' → next (c :: s) = none)
    (q : QName) {rest : List Char} (hrest : endsName rest = true) :
    qualified ok n next (q.chars ++ rest) =
      if q.isNamed ok n then next rest else none := by
  have hname := after?_bind_append (fun c hc => (hn.2 c hc).1) hnext (l := q.name.chars)
    (fun c hc => Or.inl (LocalName.isPrefixChar_of_mem hc)) hrest
  obtain ⟨qualifier, name⟩ := q
  unfold qualified
  cases qualifier with
  | none =>
    -- There is no prefix to skip, so that only the name as it stands counts.
    simp only [QName.chars, QName.front, List.nil_append]
    rw [afterPrefix?_name hok name hrest]
    simpa [QName.isNamed, QName.qualifiedBy] using hname
  | some p =>
    -- Without its colon the name is not the whole of the tag's, so that only the prefix counts.
    have hne : n ≠ (⟨some p, name⟩ : QName).chars := by
      rintro rfl
      refine (hn.2 ':' ?_).2 rfl
      simp [QName.chars, QName.front]
    have hwhole := after?_bind_append (fun c hc => (hn.2 c hc).1) hnext
      (l := (⟨some p, name⟩ : QName).chars)
      (fun c hc => QName.mem_chars hc) hrest
    rw [if_neg hne] at hwhole
    have hcolon : ok ':' = false := eq_false_of_isPrefixChar hok (by decide)
    rw [hwhole, QName.chars_some, afterPrefix?_qualifier hcolon]
    by_cases hall : p.chars.all ok = true
    · simp only [hall, if_true, Option.bind_some, hname, QName.isNamed, QName.qualifiedBy,
        Option.all_some, Bool.and_true, beq_iff_eq]
      split <;> simp_all
    · simp [hall, QName.isNamed, QName.qualifiedBy]

/-- No name is read where a slash follows the `<`. -/
theorem qualified_slash {ok : Char → Bool} (hslash : ok '/' = false) (hn : NameLike n)
    (s : List Char) : qualified ok n next ('/' :: s) = none := by
  have hafter : after? n ('/' :: s) = none := by
    obtain ⟨hne, hall⟩ := hn
    cases n with
    | nil => exact absurd rfl hne
    | cons c n =>
      refine after?_cons_of_ne ?_ n s
      rintro rfl
      exact absurd (hall '/' List.mem_cons_self).1 (by decide)
  unfold qualified
  rw [afterPrefix?_slash hslash, hafter]
  rfl

/-- A prefix that is skipped is not empty, and its colon stands behind it. -/
theorem eq_of_afterPrefix? {ok : Char → Bool} {s rest : List Char}
    (h : afterPrefix? ok s = some rest) :
    s = s.takeWhile ok ++ ':' :: rest ∧ s.takeWhile ok ≠ [] := by
  unfold afterPrefix? at h
  split at h
  · rename_i heq
    split at h
    · exact absurd h (by simp)
    · rename_i hempty
      obtain rfl := Option.some.inj h
      refine ⟨?_, fun hnil => hempty (by rw [hnil]; rfl)⟩
      rw [← heq, List.takeWhile_append_dropWhile]
  · exact absurd h (by simp)

/-- What follows a prefix is a suffix of the text. -/
theorem suffix_of_afterPrefix? {ok : Char → Bool} {s rest : List Char}
    (h : afterPrefix? ok s = some rest) : rest <:+ s := by
  rw [(eq_of_afterPrefix? h).1]
  exact (List.suffix_cons ':' rest).trans (List.suffix_append _ _)

/-- What is read behind a qualified name is read in a suffix of the text. -/
theorem suffix_of_qualified {ok : Char → Bool} {s : List Char} {b : β}
    (h : qualified ok n next s = some b) : ∃ r, r <:+ s ∧ next r = some b := by
  unfold qualified at h
  split at h
  · rename_i found hfound
    obtain rfl := Option.some.inj h
    obtain ⟨rest, hrest, hbind⟩ := Option.bind_eq_some_iff.mp hfound
    obtain ⟨r, hr, hnext⟩ := Option.bind_eq_some_iff.mp hbind
    exact ⟨r, (suffix_of_after? hr).trans (suffix_of_afterPrefix? hrest), hnext⟩
  · obtain ⟨r, hr, hnext⟩ := Option.bind_eq_some_iff.mp h
    exact ⟨r, suffix_of_after? hr, hnext⟩

end

/-! ## Readers of tags -/

/-- The text after the inside of a tag is a suffix. -/
theorem suffix_of_tagInside? {s inside rest : List Char} (h : tagInside? s = some (inside, rest)) :
    rest <:+ s := by
  unfold tagInside? at h
  split at h
  · rename_i heq
    obtain ⟨-, rfl⟩ := Prod.mk.inj (Option.some.inj h)
    exact (List.suffix_cons _ _).trans (heq ▸ List.dropWhile_suffix _)
  · exact absurd h (by simp)

/-- The inside of a tag is what stands before the first `>`. -/
theorem tagInside?_append {t : List Char} (h : '>' ∉ t) (s : List Char) :
    tagInside? (t ++ '>' :: s) = some (t, s) := by
  have hhead : ∀ c ∈ ('>' :: s).head?, (c != '>') = false := by simp
  have hall : ∀ c ∈ t, (c != '>') = true := by
    intro c hc
    rw [bne_iff_ne]
    rintro rfl
    exact h hc
  unfold tagInside?
  rw [dropWhile_append_of_head hhead, takeWhile_append_of_head hhead,
    List.dropWhile_eq_nil_iff.mpr hall, List.takeWhile_eq_self_iff.mpr hall]
  rfl

/-- The text after the end of an end tag is a suffix. -/
theorem suffix_of_afterEnd? {s rest : List Char} (h : afterEnd? s = some rest) : rest <:+ s :=
  (suffix_of_after? h).trans (List.dropWhile_suffix isBlank)

/-- No end tag ends where its name goes on. -/
theorem afterEnd?_cons_eq_none {c : Char} (h : isPrefixChar c = true ∨ c = ':') (s : List Char) :
    afterEnd? (c :: s) = none := by
  have hends := endsName_cons_eq_false h s
  simp only [endsName, Bool.or_eq_false_iff, beq_eq_false_iff_ne] at hends
  unfold afterEnd?
  rw [List.dropWhile_cons_of_neg (by simp [hends.1.1])]
  exact after?_cons_of_ne (Ne.symm hends.2) [] s

section

variable {ok : Char → Bool} {n : List Char}

/-- A tag that opens an element begins with `<`. -/
theorem opening?_of_ne {c : Char} (h : c ≠ '<') (s : List Char) :
    opening? ok n (c :: s) = none := by
  unfold opening?
  split
  · rename_i heq
    exact absurd (List.cons.inj heq).1 h
  · rfl

/-- A tag that closes its element at once begins with `<`. -/
theorem selfClosing?_of_ne {c : Char} (h : c ≠ '<') (s : List Char) :
    selfClosing? ok n (c :: s) = none := by
  unfold selfClosing?
  split
  · rename_i heq
    exact absurd (List.cons.inj heq).1 h
  · rfl

/-- An end tag begins with `<`. -/
theorem closing?_of_ne {c : Char} (h : c ≠ '<') (s : List Char) :
    closing? ok n (c :: s) = none := by
  unfold closing?
  split
  · rename_i heq
    exact absurd (List.cons.inj heq).1 h
  · rfl

/-- The beginning of a tag takes at least one character. -/
theorem reduces_opening : Reduces (opening? ok n) := by
  refine reduces_of_suffix fun s a rest h => ?_
  unfold opening? at h
  split at h
  · rename_i t
    obtain ⟨r, hr, hnext⟩ := suffix_of_qualified h
    split at hnext
    · obtain ⟨-, rfl⟩ := Prod.mk.inj (Option.some.inj hnext)
      exact ⟨'<', t, rfl, hr⟩
    · exact absurd hnext (by simp)
  · exact absurd h (by simp)

/-- A tag that closes its element at once takes at least one character. -/
theorem reduces_selfClosing : Reduces (selfClosing? ok n) := by
  refine reduces_of_suffix fun s a rest h => ?_
  unfold selfClosing? at h
  split at h
  · rename_i t
    obtain ⟨r, hr, hnext⟩ := suffix_of_qualified h
    split at hnext
    · obtain ⟨u, hu, heq⟩ := Option.map_eq_some_iff.mp hnext
      obtain ⟨-, rfl⟩ := Prod.mk.inj heq
      obtain ⟨⟨inside, after⟩, hinside, hslash⟩ := Option.bind_eq_some_iff.mp hu
      simp only at hslash
      split at hslash
      · obtain rfl := Option.some.inj hslash
        exact ⟨'<', t, rfl, (suffix_of_tagInside? hinside).trans hr⟩
      · exact absurd hslash (by simp)
    · exact absurd hnext (by simp)
  · exact absurd h (by simp)

/-- An end tag takes at least one character. -/
theorem reduces_closing : Reduces (closing? ok n) := by
  refine reduces_of_suffix fun s a rest h => ?_
  unfold closing? at h
  split at h
  · rename_i t
    obtain ⟨r, hr, hnext⟩ := suffix_of_qualified h
    obtain ⟨u, hu, heq⟩ := Option.map_eq_some_iff.mp hnext
    obtain ⟨-, rfl⟩ := Prod.mk.inj heq
    exact ⟨'<', '/' :: t, rfl, ((suffix_of_afterEnd? hu).trans hr).trans (List.suffix_cons '/' t)⟩
  · exact absurd h (by simp)

/-! ## Readers at the tags of a qualified name -/

variable (hok : ∀ c, ok c = true → isPrefixChar c = true) (hn : NameLike n)
include hok hn

/-- A start tag opens `n` exactly when that is its local name. -/
theorem opening?_append (q : QName) {rest : List Char} (hrest : endsName rest = true) :
    opening? ok n ('<' :: (q.chars ++ rest)) =
      if q.isNamed ok n then some ((), rest) else none := by
  rw [opening?, qualified_append hok hn (fun c s hc => by simp [endsName_cons_eq_false hc]) q hrest]
  simp [hrest]

/-- A tag that ends with a slash closes `n` at once exactly when that is its local name. -/
theorem selfClosing?_append_slash (q : QName) {attributes : List Char}
    (hends : endsName (attributes ++ ['/', '>']) = true) (hplain : '>' ∉ attributes)
    (s : List Char) :
    selfClosing? ok n ('<' :: (q.chars ++ (attributes ++ '/' :: '>' :: s))) =
      if q.isNamed ok n then some ((), s) else none := by
  have hrest : endsName (attributes ++ '/' :: '>' :: s) = true := by
    cases attributes with
    | nil => rfl
    | cons c t => exact hends
  have hinside : tagInside? (attributes ++ '/' :: '>' :: s) = some (attributes ++ ['/'], s) := by
    have h := tagInside?_append (t := attributes ++ ['/']) (by simp [hplain]) s
    simpa using h
  rw [selfClosing?,
    qualified_append hok hn (fun c s hc => by simp [endsName_cons_eq_false hc]) q hrest]
  simp [hrest, afterSelfClose?, hinside, endsWithSlash]

/-- A start tag that does not end with a slash closes nothing at once. -/
theorem selfClosing?_append_of_not_slash (q : QName) {attributes : List Char}
    (hends : endsName (attributes ++ ['>']) = true) (hplain : '>' ∉ attributes)
    (hslash : attributes.getLast? ≠ some '/') (s : List Char) :
    selfClosing? ok n ('<' :: (q.chars ++ (attributes ++ '>' :: s))) = none := by
  have hrest : endsName (attributes ++ '>' :: s) = true := by
    cases attributes with
    | nil => rfl
    | cons c t => exact hends
  rw [selfClosing?,
    qualified_append hok hn (fun c s hc => by simp [endsName_cons_eq_false hc]) q hrest]
  simp [hrest, afterSelfClose?, tagInside?_append hplain, endsWithSlash, hslash]

/-- An end tag closes `n` exactly when that is its local name. -/
theorem closing?_append (q : QName) (s : List Char) :
    closing? ok n ('<' :: '/' :: (q.chars ++ '>' :: s)) =
      if q.isNamed ok n then some ((), s) else none := by
  rw [closing?, qualified_append hok hn (fun c s hc => by simp [afterEnd?_cons_eq_none hc]) q rfl]
  simp [afterEnd?, show isBlank '>' = false by decide]

/-- An end tag opens no element. -/
theorem opening?_slash (s : List Char) : opening? ok n ('<' :: '/' :: s) = none :=
  qualified_slash (eq_false_of_isPrefixChar hok (by decide)) hn s

/-- An end tag closes no element at once. -/
theorem selfClosing?_slash (s : List Char) : selfClosing? ok n ('<' :: '/' :: s) = none :=
  qualified_slash (eq_false_of_isPrefixChar hok (by decide)) hn s

omit hok hn in
/-- A start tag is no end tag. -/
theorem closing?_start (q : QName) (s : List Char) :
    closing? ok n ('<' :: (q.chars ++ s)) = none := by
  obtain ⟨c, t, hq, hc⟩ := q.chars_eq_cons
  have hslash : c ≠ '/' := by
    rintro rfl
    exact absurd hc (by decide)
  rw [hq]
  unfold closing?
  split
  · rename_i heq
    exact absurd (List.cons.inj (List.cons.inj heq).2).1 hslash
  · rfl

end

/-! ## Bodies -/

/-- The end tag of an element. -/
def QName.endTag (q : QName) : List Char :=
  '<' :: ('/' :: (q.chars ++ ['>']))

/-- An exact end tag begins with `<`. -/
theorem exactClosing?_of_ne {c : Char} (h : c ≠ '<') (tag s : List Char) :
    exactClosing? tag (c :: s) = none := by
  unfold exactClosing?
  split
  · rename_i heq
    exact absurd (List.cons.inj heq).1 h
  · rfl

/-- The end tag whose name is exactly `tag` is not read where another character than a slash
follows the `<`. -/
theorem exactClosing?_start {c : Char} (h : c ≠ '/') (tag s : List Char) :
    exactClosing? tag ('<' :: c :: s) = none := by
  unfold exactClosing?
  split
  · rename_i heq
    exact absurd (List.cons.inj (List.cons.inj heq).2).1 h
  · rfl

/-- An exact end tag is read where it stands. -/
theorem exactClosing?_append (tag s : List Char) :
    exactClosing? tag ('<' :: '/' :: (tag ++ '>' :: s)) = some ((), s) := by
  rw [exactClosing?, after?_append]
  simp [afterEnd?, show isBlank '>' = false by decide]

/-- The end tag of another name is not read. -/
theorem exactClosing?_endTag {tag : List Char} (htag : ∀ c ∈ tag, endsName [c] = false) {q : QName}
    (h : tag ≠ q.chars) (s : List Char) :
    exactClosing? tag ('<' :: '/' :: (q.chars ++ '>' :: s)) = none := by
  rw [exactClosing?, after?_bind_append htag (fun c u hc => afterEnd?_cons_eq_none hc u)
    (fun c hc => QName.mem_chars hc) rfl, if_neg h]
  rfl

/-- Text without `<` holds no end tag. -/
theorem silent_exactClosing_of_not_mem {t : List Char} (ht : '<' ∉ t) (tag s : List Char) :
    Silent (exactClosing? tag) t s :=
  silent_of_not_mem (fun _ u hc => exactClosing?_of_ne hc tag u) ht s

/-- The end tag of another name holds no end tag. -/
theorem silent_exactClosing_endTag {tag : List Char} (htag : ∀ c ∈ tag, endsName [c] = false)
    {q : QName} (h : tag ≠ q.chars) (s : List Char) : Silent (exactClosing? tag) q.endTag s := by
  refine ⟨?_, silent_exactClosing_of_not_mem ?_ tag s⟩
  · have hnone := exactClosing?_endTag htag h s
    simpa using hnone
  · simp [q.lt_not_mem]

/-- A start tag holds no end tag. -/
theorem silent_exactClosing_startTag (q : QName) {t : List Char} (ht : '<' ∉ t)
    (tag s : List Char) : Silent (exactClosing? tag) ('<' :: (q.chars ++ t)) s := by
  refine ⟨?_, silent_exactClosing_of_not_mem (List.not_mem_append q.lt_not_mem ht) tag s⟩
  obtain ⟨c, u, hchars, hc⟩ := q.chars_eq_cons
  rw [hchars]
  refine exactClosing?_start ?_ tag _
  rintro rfl
  exact absurd hc (by decide)

/-- The body of an element is what stands before its end tag, if that is not read inside. -/
theorem body?_append {tag t s : List Char}
    (h : Silent (exactClosing? tag) t ('<' :: '/' :: (tag ++ '>' :: s))) :
    body? tag (t ++ '<' :: '/' :: (tag ++ '>' :: s)) = some (t, s) := by
  rw [body?, leftmost?_append_of_silent h (exactClosing?_append tag s)]
  rfl

/-- Text without the end tag stands in front of the body. -/
theorem body?_append_of_silent {tag t s : List Char} (h : Silent (exactClosing? tag) t s) :
    body? tag (t ++ s) = (body? tag s).map fun p => (t ++ p.1, p.2) := by
  rw [body?, body?, leftmost?_append h, Option.map_map, Option.map_map]
  rfl

/-- An end tag that is read begins with its name, behind which it ends. -/
theorem exists_of_exactClosing? {tag s rest : List Char} {x : Unit}
    (h : exactClosing? tag s = some (x, rest)) :
    ∃ t, s = '<' :: ('/' :: tag ++ t) ∧ afterEnd? t = some rest := by
  unfold exactClosing? at h
  split at h
  · obtain ⟨v, hv, heq⟩ := Option.map_eq_some_iff.mp h
    obtain ⟨-, rfl⟩ := Prod.mk.inj heq
    obtain ⟨t, ht, hend⟩ := Option.bind_eq_some_iff.mp hv
    exact ⟨t, by rw [after?_eq_some.mp ht]; rfl, hend⟩
  · exact absurd h (by simp)

/-- An end tag is read before any other text too. -/
theorem extends_exactClosing (tag : List Char) : Extends (exactClosing? tag) := by
  intro s t x rest h
  obtain ⟨u, rfl, hend⟩ := exists_of_exactClosing? h
  have hu : u.dropWhile isBlank = '>' :: rest := after?_eq_some.mp hend
  have hmore : afterEnd? (u ++ t) = some (rest ++ t) := by
    rw [afterEnd?, List.dropWhile_append, hu]
    exact after?_append ['>'] _
  have hchars : '<' :: ('/' :: tag ++ u) ++ t = '<' :: '/' :: (tag ++ (u ++ t)) := by simp
  rw [hchars, exactClosing?, after?_append, Option.bind_some, hmore]
  rfl

/-- Where no tag ends, no end tag is read. -/
theorem exactClosing?_of_not_mem {s : List Char} (h : '>' ∉ s) (tag : List Char) :
    exactClosing? tag s = none := by
  rw [Option.eq_none_iff_forall_not_mem]
  rintro ⟨x, rest⟩ hread
  obtain ⟨u, rfl, hend⟩ := exists_of_exactClosing? hread
  have hu : u.dropWhile isBlank = '>' :: rest := after?_eq_some.mp hend
  have hmem : '>' ∈ u := (List.dropWhile_suffix isBlank).subset (hu ▸ List.mem_cons_self)
  exact h (List.mem_cons_of_mem _ (List.mem_append_right _ hmem))

/-- The text behind the end tag of a body is a suffix. -/
theorem suffix_of_body? {tag s body rest : List Char} (h : body? tag s = some (body, rest)) :
    rest <:+ s := by
  obtain ⟨⟨t, form, u⟩, hform, heq⟩ := Option.map_eq_some_iff.mp h
  obtain ⟨-, rfl⟩ := Prod.mk.inj heq
  refine suffix_of_leftmost? (fun s a rest hread => ?_) hform
  obtain ⟨v, rfl, hend⟩ := exists_of_exactClosing? hread
  exact ((suffix_of_afterEnd? hend).trans (List.suffix_append _ v)).trans (List.suffix_cons '<' _)

/-- A text without the end tag has no body. -/
theorem body?_eq_none {tag t : List Char} (h : Silent (exactClosing? tag) t []) :
    body? tag t = none := by
  rw [body?, leftmost?_of_silent h rfl]
  rfl

end StylesheetTrace.Markup
