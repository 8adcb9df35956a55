import StylesheetTrace.Proofs.Markup.Tag

/-!
# Lines with one tag

A line of a document that is laid out with one start tag a line: the line of a leaf, which is closed
where it is opened, that of a start tag, or that of an end tag. Text without angle brackets may
stand before the tag and inside a leaf, and a start tag may have attributes. How often the readers
of tags find their form in such a line is counted tag by tag.
-/

namespace StylesheetTrace.Markup

open StylesheetTrace.Text

/-! ## Layout -/

/-- Text on a line between tags. -/
structure Plain where
  /-- The characters of the text. -/
  chars : List Char
  /-- No tag begins or ends in the text, and no line. -/
  plain : ∀ c ∈ chars, c ≠ '<' ∧ c ≠ '>' ∧ c ≠ '\n'
  deriving DecidableEq

/-- The attributes of a start tag: nothing, or text that begins with a blank. -/
structure Attributes extends Plain where
  /-- A blank parts the attributes from the name. -/
  blank : ∀ c ∈ chars.head?, isBlank c = true
  /-- Their end is not taken for that of a tag which closes its element at once. -/
  not_slash : chars.getLast? ≠ some '/'
  deriving DecidableEq

/-- A start tag and the text before it on its line. -/
structure Tag where
  /-- The text before the tag on its line. -/
  lead : Plain
  /-- The name of the element. -/
  qname : QName
  /-- The attributes behind the name. -/
  attributes : Attributes
  deriving DecidableEq

/-- A line with a label for the element that it opens: that of a leaf, of a start tag or of an end
tag. -/
inductive Line (α : Type) where
  | leaf (label : α) (tag : Tag) (text : Option Plain)
  | start (label : α) (tag : Tag)
  | close (lead : Plain) (qname : QName)
  deriving DecidableEq

variable {α : Type}

/-- The start tag of an element that has content. -/
def Tag.startTag (t : Tag) : List Char :=
  '<' :: (t.qname.chars ++ (t.attributes.chars ++ ['>']))

/-- The tag of an element that is closed at once. -/
def Tag.emptyTag (t : Tag) : List Char :=
  '<' :: (t.qname.chars ++ (t.attributes.chars ++ ['/', '>']))

namespace Line

/-- The characters of a line. -/
def chars : Line α → List Char
  | leaf _ tag none => tag.lead.chars ++ tag.emptyTag
  | leaf _ tag (some text) =>
    tag.lead.chars ++ (tag.startTag ++ (text.chars ++ tag.qname.endTag))
  | start _ tag => tag.lead.chars ++ tag.startTag
  | close lead qname => lead.chars ++ qname.endTag

/-- A line as a text. -/
def text (l : Line α) : String := String.ofList l.chars

/-- The start tag that a line holds. -/
def tag? : Line α → Option Tag
  | leaf _ tag _ => some tag
  | start _ tag => some tag
  | close _ _ => none

/-- By how much a line changes the depth of nesting in elements of a local name. -/
def delta (n : LocalName) : Line α → Int
  | leaf _ _ _ => 0
  | start _ tag => if tag.qname.name = n then 1 else 0
  | close _ qname => if qname.name = n then -1 else 0

end Line

/-! ## What the search sees of a line -/

/-- A text without angle brackets holds neither of them. -/
theorem Plain.not_mem (p : Plain) : '<' ∉ p.chars ∧ '>' ∉ p.chars ∧ '\n' ∉ p.chars :=
  ⟨fun h => (p.plain _ h).1 rfl, fun h => (p.plain _ h).2.1 rfl, fun h => (p.plain _ h).2.2 rfl⟩

/-- The name of a tag ends before its attributes. -/
theorem Attributes.endsName_append (a : Attributes) {s : List Char} (hs : endsName s = true) :
    endsName (a.chars ++ s) = true := by
  cases h : a.chars with
  | nil => exact hs
  | cons c t =>
    have hc : isBlank c = true := a.blank c (by simp [h])
    simp [endsName, hc]

section

variable {r : Reader Unit} (hne : ∀ c s, c ≠ '<' → r (c :: s) = none)
include hne

/-- A text without `<` holds no tag. -/
theorem count_append_of_not_mem {t : List Char} (ht : '<' ∉ t) (s : List Char) :
    count r (t ++ s) = count r s := by
  rw [count, collect_append_of_silent (silent_of_not_mem hne ht s), count]

/-- A tag that is not read counts nothing. -/
theorem count_cons_of_none {u s : List Char} (hu : '<' ∉ u) (h : r ('<' :: (u ++ s)) = none) :
    count r ('<' :: (u ++ s)) = count r s := by
  have hsilent : Silent r ('<' :: u) s := ⟨h, silent_of_not_mem hne hu s⟩
  have hcollect := collect_append_of_silent hsilent
  rw [List.cons_append] at hcollect
  rw [count, hcollect, count]

/-- A tag that is read counts one, and one that is not counts nothing. -/
theorem count_cons_of_ite (hr : Reduces r) {b : Bool} {u v s : List Char} (hu : '<' ∉ u)
    (hv : '<' ∉ v) (h : r ('<' :: (u ++ s)) = if b then some ((), v ++ s) else none) :
    count r ('<' :: (u ++ s)) = (if b then 1 else 0) + count r s := by
  cases b with
  | true =>
    rw [if_pos rfl] at h
    rw [count, collect_of_some hr h, collect_append_of_silent (silent_of_not_mem hne hv s),
      List.length_cons, if_pos rfl, count, Nat.add_comm]
  | false =>
    rw [count_cons_of_none hne hu (by simpa using h)]
    simp

end

section

variable {ok : Char → Bool} {n : List Char}

section

variable (hok : ∀ c, ok c = true → isPrefixChar c = true) (hn : NameLike n)
include hok hn

/-- A start tag opens its local name. -/
theorem count_opening_startTag (t : Tag) (s : List Char) :
    count (opening? ok n) (t.startTag ++ s) =
      (if t.qname.isNamed ok n then 1 else 0) + count (opening? ok n) s := by
  have hq := t.qname.lt_not_mem
  have ha := t.attributes.not_mem.1
  have hends : endsName (t.attributes.chars ++ '>' :: s) = true :=
    t.attributes.endsName_append rfl
  have hread := opening?_append hok hn t.qname hends
  exact count_cons_of_ite (fun c s h => opening?_of_ne h s) reduces_opening
    (v := t.attributes.chars ++ ['>']) (by simp [hq, ha]) (by simp [ha]) (by simpa using hread)

/-- The tag of an element that is closed at once opens its local name. -/
theorem count_opening_emptyTag (t : Tag) :
    count (opening? ok n) t.emptyTag = if t.qname.isNamed ok n then 1 else 0 := by
  have hq := t.qname.lt_not_mem
  have ha := t.attributes.not_mem.1
  have hends : endsName (t.attributes.chars ++ ['/', '>']) = true :=
    t.attributes.endsName_append rfl
  have hread := opening?_append hok hn t.qname hends
  have hcount := count_cons_of_ite (fun c s h => opening?_of_ne h s) reduces_opening (s := [])
    (u := t.qname.chars ++ (t.attributes.chars ++ ['/', '>']))
    (v := t.attributes.chars ++ ['/', '>']) (by simp [hq, ha]) (by simp [ha]) (by simpa using hread)
  rw [List.append_nil] at hcount
  exact hcount

/-- An end tag opens nothing. -/
theorem count_opening_endTag (q : QName) : count (opening? ok n) q.endTag = 0 := by
  have hcount := count_cons_of_none (fun c s h => opening?_of_ne h s) (s := [])
    (u := '/' :: (q.chars ++ ['>'])) (by simp [q.lt_not_mem]) (opening?_slash hok hn _)
  rw [List.append_nil] at hcount
  exact hcount

/-- A start tag with content behind it closes nothing at once. -/
theorem count_selfClosing_startTag (t : Tag) (s : List Char) :
    count (selfClosing? ok n) (t.startTag ++ s) = count (selfClosing? ok n) s := by
  have hq := t.qname.lt_not_mem
  have ha := t.attributes.not_mem
  have hread := selfClosing?_append_of_not_slash hok hn t.qname
    (t.attributes.endsName_append (s := ['>']) rfl) ha.2.1 t.attributes.not_slash s
  exact count_cons_of_none (fun c s h => selfClosing?_of_ne h s) (by simp [hq, ha.1])
    (by simpa using hread)

/-- The tag of an element that is closed at once does so for its local name. -/
theorem count_selfClosing_emptyTag (t : Tag) :
    count (selfClosing? ok n) t.emptyTag = if t.qname.isNamed ok n then 1 else 0 := by
  have hq := t.qname.lt_not_mem
  have ha := t.attributes.not_mem
  have hread := selfClosing?_append_slash hok hn t.qname
    (t.attributes.endsName_append (s := ['/', '>']) rfl) ha.2.1 []
  have hcount := count_cons_of_ite (fun c s h => selfClosing?_of_ne h s) reduces_selfClosing
    (s := []) (u := t.qname.chars ++ (t.attributes.chars ++ ['/', '>'])) (v := [])
    (by simp [hq, ha.1]) (by simp) (by simpa using hread)
  rw [List.append_nil] at hcount
  exact hcount

/-- An end tag closes nothing at once. -/
theorem count_selfClosing_endTag (q : QName) : count (selfClosing? ok n) q.endTag = 0 := by
  have hcount := count_cons_of_none (fun c s h => selfClosing?_of_ne h s) (s := [])
    (u := '/' :: (q.chars ++ ['>'])) (by simp [q.lt_not_mem]) (selfClosing?_slash hok hn _)
  rw [List.append_nil] at hcount
  exact hcount

/-- An end tag closes its local name. -/
theorem count_closing_endTag (q : QName) :
    count (closing? ok n) q.endTag = if q.isNamed ok n then 1 else 0 := by
  have hcount := count_cons_of_ite (fun c s h => closing?_of_ne h s) reduces_closing (s := [])
    (u := '/' :: (q.chars ++ ['>'])) (v := []) (by simp [q.lt_not_mem]) (by simp)
    (by simpa using closing?_append hok hn q [])
  rw [List.append_nil] at hcount
  exact hcount

end

/-- A start tag is no end tag. -/
theorem count_closing_startTag (t : Tag) (s : List Char) :
    count (closing? ok n) (t.startTag ++ s) = count (closing? ok n) s := by
  have hq := t.qname.lt_not_mem
  have ha := t.attributes.not_mem.1
  have hread := @closing?_start ok n t.qname (t.attributes.chars ++ '>' :: s)
  exact count_cons_of_none (fun c s h => closing?_of_ne h s) (by simp [hq, ha])
    (by simpa using hread)

/-- The tag of an element that is closed at once is no end tag. -/
theorem count_closing_emptyTag (t : Tag) : count (closing? ok n) t.emptyTag = 0 := by
  have hq := t.qname.lt_not_mem
  have ha := t.attributes.not_mem.1
  have hread := @closing?_start ok n t.qname (t.attributes.chars ++ ['/', '>'])
  have hcount := count_cons_of_none (fun c s h => closing?_of_ne h s) (s := [])
    (u := t.qname.chars ++ (t.attributes.chars ++ ['/', '>'])) (by simp [hq, ha])
    (by simpa using hread)
  rw [List.append_nil] at hcount
  exact hcount

end

/-- Every prefix is made of the characters of a prefix. -/
theorem QName.isNamed_isPrefixChar (q : QName) (n : LocalName) :
    q.isNamed isPrefixChar n.chars = decide (q.name = n) := by
  have hq : q.qualifiedBy isPrefixChar = true := by
    obtain ⟨qualifier, name⟩ := q
    cases qualifier with
    | none => rfl
    | some p => exact List.all_eq_true.mpr p.chars_ok
  rw [QName.isNamed, hq, Bool.and_true, Bool.eq_iff_iff, beq_iff_eq, decide_eq_true_iff,
    LocalName.chars_inj]
  exact eq_comm

/-- The forms of a reader of tags in a line are those behind its leading text. -/
theorem Line.count_opening {ok : Char → Bool} {n : List Char}
    (hok : ∀ c, ok c = true → isPrefixChar c = true) (hn : NameLike n) (l : Line α) :
    count (opening? ok n) l.chars = if l.tag?.any fun t => t.qname.isNamed ok n then 1 else 0 := by
  have hskip : ∀ (p : Plain) (s : List Char),
      count (opening? ok n) (p.chars ++ s) = count (opening? ok n) s := fun p s =>
    count_append_of_not_mem (fun c s h => opening?_of_ne h s) p.not_mem.1 s
  cases l with
  | leaf label tag text =>
    cases text with
    | none =>
      rw [Line.chars, hskip, count_opening_emptyTag hok hn]
      rfl
    | some text =>
      rw [Line.chars, hskip, count_opening_startTag hok hn, hskip, count_opening_endTag hok hn]
      rfl
  | start label tag =>
    have hcount := count_opening_startTag hok hn tag []
    rw [List.append_nil] at hcount
    rw [Line.chars, hskip, hcount]
    rfl
  | close lead qname =>
    rw [Line.chars, hskip, count_opening_endTag hok hn]
    rfl

/-- A line opens the names of its start tag. -/
theorem Line.hasForm_opening {ok : Char → Bool} {n : List Char}
    (hok : ∀ c, ok c = true → isPrefixChar c = true) (hn : NameLike n) (l : Line α) :
    hasForm (opening? ok n) l.chars = l.tag?.any fun t => t.qname.isNamed ok n := by
  rw [hasForm_eq_decide reduces_opening, l.count_opening hok hn]
  split <;> simp_all

end StylesheetTrace.Markup
