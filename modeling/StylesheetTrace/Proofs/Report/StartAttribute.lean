import StylesheetTrace.Proofs.Report.Attribute

/-!
# Attributes of any name

The start tag of a block may have attributes of any name, with values that are escaped as far as XML
asks for it: a value holds no `<` and not its own quote, but it may hold `>`, blanks, equals signs
and the other quote. The search for the attributes that a violation is read from does not know of
values: it takes `>` for the end of the tag, and looks for names behind any blank. So it goes wrong
where a value holds `>` before the last of these attributes, or where an assignment to one of them
begins in the value of another one (`Feigns`). Of attributes that are clear of this (`Clear`)
exactly the values that are given are read (`collect_visible`).
-/

namespace StylesheetTrace.Report

open StylesheetTrace.Text StylesheetTrace.Entity StylesheetTrace.Markup

/-! ## Attributes -/

/-- The part of a tag that is taken for its inside, or of a value for the end of that: what stands
before the first `>`. -/
def visible (s : List Char) : List Char := s.takeWhile (· != '>')

/-- The field of a name. -/
def fieldNamed? (name : List Char) : Option Field :=
  Field.all.find? fun f => f.name.toList == name

/-- An attribute of any name, with its value as it is written in a tag. -/
structure StartAttribute where
  /-- The name. -/
  name : List Char
  /-- The quotes around the value. -/
  quote : Quote
  /-- The value. -/
  value : List Char
  /-- The blanks before the attribute. -/
  before : List Char
  /-- The blanks before the equals sign. -/
  left : List Char
  /-- The blanks behind the equals sign. -/
  right : List Char
  /-- No character in the name ends it. -/
  name_ok : ∀ c ∈ name, c ∉ [' ', '\t', '\r', '\n', '=', '<', '>', '/', '"', '\'']
  /-- Neither a tag begins in the value nor a quote that ends it. -/
  value_ok : '<' ∉ value ∧ quote.char ∉ value
  /-- There is a blank before the attribute. -/
  before_ne_nil : before ≠ []
  /-- All these are blanks. -/
  blank : ∀ c ∈ before ++ (left ++ right), isBlank c = true

namespace StartAttribute

/-- The attribute up to its value, the quote before that included. -/
def front (a : StartAttribute) : List Char :=
  a.before ++ (a.name ++ (a.left ++ '=' :: (a.right ++ [a.quote.char])))

/-- The characters of an attribute. -/
def chars (a : StartAttribute) : List Char := a.front ++ (a.value ++ [a.quote.char])

/-- The field that the attribute gives a value for. -/
def field? (a : StartAttribute) : Option Field := fieldNamed? a.name

/-- The value that the attribute gives for a field. -/
def given? (a : StartAttribute) : Option (Field × List Char) := a.field?.map fun f => (f, a.value)

end StartAttribute

/-- An assignment to a field begins in the text, behind a blank. -/
def Feigns (t : List Char) : Prop :=
  ∃ (c : Char) (f : Field) (left right : List Char) (q : Quote), isBlank c = true ∧
    (∀ d ∈ left ++ right, isBlank d = true) ∧ c :: assignment f left right q <:+: t

/-- No attribute is read wrongly. One that gives no value for a field has no blank in its name, and
no assignment begins in its value, the quote behind it included. A value holds `>` only where no
field is given a value from there on, and the tag does not seem to close its element at this `>`;
then only what stands before that counts. -/
def Clear : List StartAttribute → Prop
  | [] => True
  | a :: as => (a.field? = none → ∀ c ∈ a.name, isBlank c = false) ∧
      ('>' ∉ a.value ∧ (a.field? = none → ¬ Feigns (a.value ++ [a.quote.char])) ∧ Clear as ∨
        '>' ∈ a.value ∧ (∀ b ∈ a :: as, b.field? = none) ∧ ¬ Feigns (visible a.value) ∧
          (visible a.value).getLast? ≠ some '/')

/-! ## Reading any attributes -/

/-- A name may be made of the characters of a prefix. -/
theorem not_mem_of_isPrefixChar {c : Char} (h : isPrefixChar c = true) :
    c ∉ [' ', '\t', '\r', '\n', '=', '<', '>', '/', '"', '\''] := by
  have hnone : ([' ', '\t', '\r', '\n', '=', '<', '>', '/', '"', '\''].all
      fun d => !isPrefixChar d) = true := by decide
  intro hmem
  have hnot := List.all_eq_true.mp hnone c hmem
  rw [h] at hnot
  exact absurd hnot (by decide)

/-- A field is known by its name. -/
theorem fieldNamed?_eq_some {name : List Char} {f : Field} :
    fieldNamed? name = some f ↔ name = f.name.toList := by
  constructor
  · intro h
    have hname := List.find?_some h
    exact (beq_iff_eq.mp hname).symm
  · rintro rfl
    cases f <;> decide

/-- What begins in a part of a text begins in the text. -/
theorem Feigns.mono {t u : List Char} (htu : t <:+: u) (h : Feigns t) : Feigns u := by
  obtain ⟨c, f, left, right, q, hc, hblank, ht⟩ := h
  exact ⟨c, f, left, right, q, hc, hblank, ht.trans htu⟩

/-- No assignment begins in a text without an equals sign. -/
theorem not_feigns_of_not_mem {t : List Char} (h : '=' ∉ t) : ¬ Feigns t := by
  rintro ⟨c, f, left, right, q, -, -, ht⟩
  exact h (ht.subset (by simp [assignment]))

namespace StartAttribute

variable (a : StartAttribute)

/-- One of the blanks before the name is the last. -/
theorem exists_before : ∃ bs c, a.before = bs ++ [c] :=
  ⟨_, _, (List.dropLast_append_getLast a.before_ne_nil).symm⟩

/-- The blanks before the name. -/
theorem isBlank_of_mem_before {c : Char} (h : c ∈ a.before) : isBlank c = true :=
  a.blank c (List.mem_append_left _ h)

/-- The blanks around the equals sign. -/
theorem isBlank_of_mem_around {c : Char} (h : c ∈ a.left ++ a.right) : isBlank c = true :=
  a.blank c (List.mem_append_right _ h)

/-- Nothing is read behind a blank before a name that is not one of a field. -/
theorem attribute?_name (hfield : a.field? = none) (hname : ∀ c ∈ a.name, isBlank c = false)
    (c : Char) (s : List Char) : attribute? (c :: (a.name ++ (a.left ++ '=' :: s))) = none := by
  -- A name is all that stands before the next blank or equals sign.
  have hrun : ∀ {n l : List Char}, (∀ d ∈ n, (!isBlank d && d != '=') = true) →
      (∀ d ∈ l, isBlank d = true) → ∀ x : List Char,
        (n ++ (l ++ '=' :: x)).takeWhile (fun d => !isBlank d && d != '=') = n := by
    intro n l hn hl x
    have hhead : ∀ d ∈ (l ++ '=' :: x).head?, (!isBlank d && d != '=') = false := by
      intro d hd
      cases l with
      | nil =>
        obtain rfl : '=' = d := Option.some.inj hd
        rfl
      | cons e l =>
        obtain rfl : e = d := Option.some.inj hd
        simp [hl e List.mem_cons_self]
    rw [takeWhile_append_of_head hhead, List.takeWhile_eq_self_iff]
    exact hn
  rw [Option.eq_none_iff_forall_not_mem]
  rintro ⟨⟨f, raw⟩, rest⟩ hread
  obtain ⟨b, left, right, q, hs, -, hblank⟩ := exists_of_attribute? hread
  have hsame : a.name ++ (a.left ++ '=' :: s) = f.name.toList ++ (left ++ '=' ::
      (right ++ q.char :: (raw ++ q.char :: rest))) := by
    rw [(List.cons.inj hs).2]
    simp [assignment]
  have hnamed := congrArg (List.takeWhile fun d => !isBlank d && d != '=') hsame
  rw [hrun, hrun] at hnamed
  · exact absurd (hfield.symm.trans (fieldNamed?_eq_some.mpr hnamed)) (by simp)
  · cases f <;> exact List.all_eq_true.mp (by decide)
  · exact fun d hd => hblank d (List.mem_append_left right hd)
  · intro d hd
    have hequals : d ≠ '=' := by
      rintro rfl
      exact a.name_ok '=' hd (by decide)
    simp [hname d hd, hequals]
  · exact fun d hd => a.isBlank_of_mem_around (List.mem_append_left _ hd)

/-- Nothing is read up to the value of an attribute that gives no value for a field. -/
theorem silent_front (hfield : a.field? = none) (hname : ∀ c ∈ a.name, isBlank c = false)
    (s : List Char) : Silent attribute? a.front s := by
  obtain ⟨bs, c, hbefore⟩ := a.exists_before
  have hchars : a.front = bs ++ ([c] ++ (a.name ++ (a.left ++ ['='] ++ (a.right ++
      [a.quote.char])))) := by
    simp [front, hbefore]
  have hmem : ∀ d ∈ bs ++ [c], isBlank d = true := fun d hd =>
    a.isBlank_of_mem_before (hbefore ▸ hd)
  have hequals : ∀ f : Field, f.initial ≠ '=' := by
    intro f
    cases f <;> decide
  have hquote : ∀ f : Field, f.initial ≠ a.quote.char := by
    intro f
    cases f <;> cases a.quote <;> decide
  rw [hchars]
  refine silent_append.mpr ⟨?_, silent_append.mpr ⟨⟨?_, trivial⟩, silent_append.mpr ⟨?_,
    silent_append.mpr ⟨silent_append.mpr ⟨?_, ?_, trivial⟩, silent_append.mpr ⟨?_, ?_, trivial⟩⟩⟩⟩⟩
  · refine silent_attribute? (fun d hd => hmem d (List.mem_append_left _ hd)) fun d hd => ?_
    obtain rfl : c = d := Option.some.inj hd
    exact Field.initial_ne_of_isBlank (hmem c (by simp))
  · have hnone := a.attribute?_name hfield hname c (a.right ++ [a.quote.char] ++ s)
    simpa using hnone
  · exact silent_of_forall_mem (fun d hd u => attribute?_of_not_blank (hname d hd) u) _
  · refine silent_attribute? (fun d hd => a.isBlank_of_mem_around (List.mem_append_left _ hd))
      fun d hd => ?_
    obtain rfl : '=' = d := Option.some.inj hd
    exact hequals
  · exact attribute?_of_not_blank (by decide) _
  · refine silent_attribute? (fun d hd => a.isBlank_of_mem_around (List.mem_append_right _ hd))
      fun d hd => ?_
    obtain rfl : a.quote.char = d := Option.some.inj hd
    exact hquote
  · exact attribute?_of_not_blank (by cases a.quote <;> decide) _

/-- An assignment that begins in a value lies in it, or ends with the quote behind it: that quote may
open the value of the assignment, but does not stand before this. -/
theorem assignment_isPrefix {f : Field} {left right t v y : List Char} {q : Quote}
    (hblank : ∀ d ∈ left ++ right, isBlank d = true) (hy : ∀ d ∈ y.head?, d = a.quote.char)
    (h : v ++ y = assignment f left right q ++ t) :
    assignment f left right q <+: v ++ y.take 1 := by
  cases y with
  | nil => exact ⟨t, by simpa using h.symm⟩
  | cons d y =>
    obtain rfl : d = a.quote.char := hy d rfl
    have hword : a.quote.char ∉ f.name.toList ++ (left ++ '=' :: right) := by
      have hname : a.quote.char ∉ f.name.toList := by
        cases f <;> cases a.quote <;> decide
      have hequals : a.quote.char ≠ '=' := by cases a.quote <;> decide
      have hblanks : a.quote.char ∉ left ++ right := by
        intro hmem
        have hb := hblank _ hmem
        revert hb
        cases a.quote <;> decide
      simp only [List.mem_append, not_or] at hblanks
      simp [hname, hequals, hblanks]
    have hsame : v ++ a.quote.char :: y =
        (f.name.toList ++ (left ++ '=' :: right)) ++ q.char :: t := by
      rw [h]
      simp [assignment]
    obtain ⟨w, rfl, hw⟩ := append_cons_eq_append hword hsame
    cases w with
    | nil =>
      obtain ⟨hq, -⟩ := List.cons.inj hw
      exact ⟨[], by simp [assignment, hq]⟩
    | cons e w =>
      obtain ⟨rfl, -⟩ := List.cons.inj hw
      exact ⟨w ++ [a.quote.char], by simp [assignment]⟩

/-- Nothing is read in a value in which no assignment begins, whether its quote follows or it is cut
off. -/
theorem silent_value {v y : List Char} (hfeigns : ¬ Feigns (v ++ y.take 1))
    (hy : ∀ d ∈ y.head?, d = a.quote.char) : Silent attribute? v y := by
  induction v with
  | nil => trivial
  | cons c v ih =>
    refine ⟨?_, ih (mt (Feigns.mono (List.suffix_cons c _).isInfix) hfeigns)⟩
    rw [Option.eq_none_iff_forall_not_mem]
    rintro ⟨⟨f, raw⟩, rest⟩ hread
    obtain ⟨b, left, right, q, hs, hc, hblank⟩ := exists_of_attribute? hread
    obtain ⟨rfl, htail⟩ := List.cons.inj hs
    exact hfeigns ⟨c, f, left, right, q, hc, hblank,
      (List.cons_prefix_cons.mpr ⟨rfl, a.assignment_isPrefix hblank hy htail⟩).isInfix⟩

/-- Nothing is read in an attribute that gives no value for a field. -/
theorem silent_chars (hfield : a.field? = none) (hname : ∀ c ∈ a.name, isBlank c = false)
    (hfeigns : ¬ Feigns (a.value ++ [a.quote.char])) (s : List Char) :
    Silent attribute? a.chars s := by
  refine silent_append.mpr ⟨a.silent_front hfield hname _, silent_append.mpr ⟨?_, ?_, trivial⟩⟩
  · exact a.silent_value hfeigns fun d hd => (Option.some.inj hd).symm
  · exact attribute?_of_not_blank (by cases a.quote <;> decide) _

/-- Nor is anything read in it when it is cut off in its value. -/
theorem silent_visible (hfield : a.field? = none) (hname : ∀ c ∈ a.name, isBlank c = false)
    (hfeigns : ¬ Feigns (visible a.value)) :
    Silent attribute? (a.front ++ visible a.value) [] :=
  silent_append.mpr ⟨a.silent_front hfield hname _,
    a.silent_value (by rwa [List.take_nil, List.append_nil]) (by simp)⟩

/-- Before its value an attribute holds no angle bracket. -/
theorem not_mem_front {d : Char} (hd : d = '<' ∨ d = '>') : d ∉ a.front := by
  have hblank : ∀ {t : List Char}, (∀ c ∈ t, isBlank c = true) → d ∉ t := by
    intro t ht h
    have hb := ht d h
    rcases hd with rfl | rfl <;> exact absurd hb (by decide)
  have hbefore := hblank fun _ => a.isBlank_of_mem_before
  have haround := hblank fun _ => a.isBlank_of_mem_around
  have hname : d ∉ a.name := fun h => a.name_ok d h (by rcases hd with rfl | rfl <;> decide)
  have hequals : d ≠ '=' := by rcases hd with rfl | rfl <;> decide
  simp only [List.mem_append, not_or] at haround
  simp [front, hbefore, haround, hname, a.quote.ne_char hd, hequals]

/-- An attribute holds no angle bracket that does not stand in its value. -/
theorem not_mem_chars {d : Char} (hd : d = '<' ∨ d = '>') (hvalue : d ∉ a.value) :
    d ∉ a.chars := by
  simp [chars, a.not_mem_front hd, hvalue, a.quote.ne_char hd]

/-- An attribute begins with a blank. -/
theorem isBlank_head_front (s : List Char) : ∀ c ∈ (a.front ++ s).head?, isBlank c = true := by
  intro c hc
  obtain ⟨d, t, hbefore⟩ := List.exists_cons_of_ne_nil a.before_ne_nil
  obtain rfl : d = c := by simpa [front, hbefore] using hc
  exact a.isBlank_of_mem_before (hbefore ▸ List.mem_cons_self)

/-- Nothing is read at blanks before an attribute. -/
theorem silent_lead {lead : List Char} (hlead : ∀ c ∈ lead, isBlank c = true) (s : List Char) :
    Silent attribute? lead (a.front ++ s) :=
  silent_attribute? hlead fun _ hd => Field.initial_ne_of_isBlank (a.isBlank_head_front s _ hd)

/-- The value of a field is read behind blanks. -/
theorem collect_field {f : Field} (hfield : a.field? = some f) {lead : List Char}
    (hlead : ∀ c ∈ lead, isBlank c = true) (s : List Char) :
    collect attribute? (lead ++ (a.chars ++ s)) = (f, a.value) :: collect attribute? s := by
  -- Of the blanks before the attribute only the last one is read with it.
  obtain ⟨bs, c, hbefore⟩ := a.exists_before
  have hblank : ∀ d ∈ bs ++ [c], isBlank d = true := fun d hd =>
    a.isBlank_of_mem_before (hbefore ▸ hd)
  have hchars : lead ++ (a.chars ++ s) = (lead ++ bs) ++
      c :: (assignment f a.left a.right a.quote ++ (a.value ++ a.quote.char :: s)) := by
    simp [chars, front, assignment, hbefore, fieldNamed?_eq_some.mp hfield]
  have hsilent : Silent attribute? (lead ++ bs)
      (c :: (assignment f a.left a.right a.quote ++ (a.value ++ a.quote.char :: s))) := by
    refine silent_attribute? (fun d hd => ?_) fun d hd => ?_
    · rcases List.mem_append.mp hd with hd | hd
      · exact hlead d hd
      · exact hblank d (List.mem_append_left _ hd)
    · obtain rfl : c = d := Option.some.inj hd
      exact Field.initial_ne_of_isBlank (hblank c (by simp))
  rw [hchars, collect_append_of_silent hsilent, collect_of_some reduces_attribute
    (attribute?_assignment f a.quote (fun _ => a.isBlank_of_mem_around) a.value_ok.2
      (hblank c (by simp)) s)]

end StartAttribute

/-! ## The visible part of a tag -/

section

variable {a : StartAttribute} {as : List StartAttribute} {trailing : List Char}

/-- A text without `>` is visible before any other. -/
theorem visible_append {t : List Char} (h : '>' ∉ t) (s : List Char) :
    visible (t ++ s) = t ++ visible s := by
  refine List.takeWhile_append_of_pos fun c hc => bne_iff_ne.mpr ?_
  rintro rfl
  exact h hc

/-- A text without `>` is visible. -/
theorem visible_eq_self {t : List Char} (h : '>' ∉ t) : visible t = t := by
  simpa [visible] using visible_append h []

/-- Of a value with `>` and what stands behind it only the part before the `>` is visible. -/
theorem visible_append_of_mem {t : List Char} (h : '>' ∈ t) (s : List Char) :
    visible (t ++ s) = visible t := by
  obtain ⟨u, v, rfl, hu⟩ := List.eq_append_cons_of_mem h
  rw [List.append_assoc, visible_append hu, visible_append hu]
  rfl

/-- An attribute without `>` in its value is visible. -/
theorem visible_chars (h : '>' ∉ a.value) (s : List Char) :
    visible (a.chars ++ s) = a.chars ++ visible s :=
  visible_append (a.not_mem_chars (Or.inr rfl) h) s

/-- An attribute with `>` in its value is cut off there. -/
theorem visible_chars_of_mem (h : '>' ∈ a.value) (s : List Char) :
    visible (a.chars ++ s) = a.front ++ visible a.value := by
  rw [StartAttribute.chars, List.append_assoc, visible_append (a.not_mem_front (Or.inr rfl)),
    List.append_assoc, visible_append_of_mem h]

/-- Blanks are visible. -/
theorem visible_blanks (h : ∀ c ∈ trailing, isBlank c = true) : visible trailing = trailing :=
  visible_eq_self fun hmem => absurd (h '>' hmem) (by decide)

/-- Attributes and the blanks behind them begin with a blank. -/
theorem isBlank_head_startAttributes (htrailing : ∀ c ∈ trailing, isBlank c = true) :
    ∀ c ∈ (as.flatMap StartAttribute.chars ++ trailing).head?, isBlank c = true := by
  cases as with
  | nil => exact fun c hc => htrailing c (List.mem_of_mem_head? hc)
  | cons a as =>
    rw [List.flatMap_cons, StartAttribute.chars, List.append_assoc, List.append_assoc]
    exact a.isBlank_head_front _

/-- A tag does not seem to close its element at once. -/
theorem endsWithSlash_visible (h : Clear as) (htrailing : ∀ c ∈ trailing, isBlank c = true) :
    endsWithSlash (visible (as.flatMap StartAttribute.chars ++ trailing)) = false := by
  have hblank : ∀ {t : List Char}, (∀ c ∈ t, isBlank c = true) → t.getLast? ≠ some '/' :=
    fun ht hlast => absurd (ht '/' (List.mem_of_getLast? hlast)) (by decide)
  rw [endsWithSlash, beq_eq_false_iff_ne]
  induction as with
  | nil =>
    rw [List.flatMap_nil, List.nil_append, visible_blanks htrailing]
    exact hblank htrailing
  | cons a as ih =>
    -- Before the last part the tag ends with the quote before or behind the value.
    have hlast : ∀ t {u : List Char}, u.getLast? ≠ some '/' →
        ((t ++ [a.quote.char]) ++ u).getLast? ≠ some '/' := by
      intro t u hu
      rw [List.getLast?_append, List.getLast?_concat]
      cases hc : u.getLast? with
      | some c => rwa [Option.some_or, ← hc]
      | none => exact fun hquote => a.quote.char_ne.2.2 (Option.some.inj hquote)
    rw [List.flatMap_cons, List.append_assoc]
    rcases h.2 with ⟨hgt, -, hrest⟩ | ⟨hgt, -, -, hslash⟩
    · rw [visible_chars hgt, StartAttribute.chars, ← List.append_assoc a.front]
      exact hlast _ (ih hrest)
    · have hfront : a.front =
          (a.before ++ (a.name ++ (a.left ++ '=' :: a.right))) ++ [a.quote.char] := by
        simp [StartAttribute.front]
      rw [visible_chars_of_mem hgt, hfront]
      exact hlast _ hslash

/-- Of attributes that are not read wrongly exactly the values that are given are read. -/
theorem collect_visible (h : Clear as) {lead : List Char} (hlead : ∀ c ∈ lead, isBlank c = true)
    (htrailing : ∀ c ∈ trailing, isBlank c = true) :
    collect attribute? (lead ++ visible (as.flatMap StartAttribute.chars ++ trailing)) =
      as.filterMap StartAttribute.given? := by
  induction as generalizing lead with
  | nil =>
    rw [List.flatMap_nil, List.nil_append, visible_blanks htrailing]
    refine collect_of_silent (silent_attribute? (fun c hc => ?_) (by simp))
    exact (List.mem_append.mp hc).elim (hlead c) (htrailing c)
  | cons a as ih =>
    obtain ⟨hname, hvalue⟩ := h
    rw [List.flatMap_cons, List.append_assoc]
    rcases hvalue with ⟨hgt, hfeigns, hrest⟩ | ⟨hgt, hnone, hfeigns, -⟩
    · have ih : collect attribute? (visible (as.flatMap StartAttribute.chars ++ trailing)) =
          as.filterMap StartAttribute.given? := ih hrest (List.forall_mem_nil _)
      rw [visible_chars hgt]
      cases hfield : a.field? with
      | some f =>
        rw [a.collect_field hfield hlead, ih, List.filterMap_cons_some]
        rw [StartAttribute.given?, hfield, Option.map_some]
      | none =>
        have hsilent : Silent attribute? (lead ++ a.chars)
            (visible (as.flatMap StartAttribute.chars ++ trailing)) := by
          refine silent_append.mpr ⟨?_, a.silent_chars hfield (hname hfield) (hfeigns hfield) _⟩
          rw [StartAttribute.chars, List.append_assoc]
          exact a.silent_lead hlead _
        rw [← List.append_assoc, collect_append_of_silent hsilent, ih, List.filterMap_cons_none]
        rw [StartAttribute.given?, hfield, Option.map_none]
    · -- Nothing is read up to the `>`, and no value is given from there on.
      have hfield := hnone a List.mem_cons_self
      have hgiven : (a :: as).filterMap StartAttribute.given? = [] := by
        rw [List.filterMap_eq_nil_iff]
        intro b hb
        rw [StartAttribute.given?, hnone b hb, Option.map_none]
      rw [visible_chars_of_mem hgt, hgiven]
      refine collect_of_silent (silent_append.mpr
        ⟨?_, a.silent_visible hfield (hname hfield) hfeigns⟩)
      rw [List.append_nil]
      exact a.silent_lead hlead _

end

end StylesheetTrace.Report
