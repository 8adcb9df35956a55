import Mathlib.Data.List.Pairwise
import StylesheetTrace.Proofs.Stylesheet.Nesting
import StylesheetTrace.Stylesheet.Template

/-!
# Spans of templates

Whatever the text, the templates that are reported lie one behind the other: each begins before it
ends, and ends before the next one begins (`templates_spans`). The names reported as produced are
read between the tags of the template, each once: a name is produced exactly when an instruction
that creates an element has it, or when an element of a business document has a name that begins
with it and goes on, if at all, with a character other than an ASCII letter or digit.
-/

namespace StylesheetTrace.Stylesheet

open StylesheetTrace.Text StylesheetTrace.Markup

/-! ## The reading, line by line -/

/-- What has been read of the templates before line `n`, counted from zero: the one that is open, if
any, and those that are complete, the last one first. -/
def templatesBefore (xsl : List Char) (ls : List (List Char)) (n : Nat) :
    Option OpenTemplate × List Template :=
  ((ls.zipIdx 1).take n).foldl (templateStep xsl) (none, [])

/-- Nothing has been read before the first line. -/
@[simp]
theorem templatesBefore_zero (xsl : List Char) (ls : List (List Char)) :
    templatesBefore xsl ls 0 = (none, []) := rfl

/-- The reading goes from one line to the next. -/
theorem templatesBefore_succ {xsl : List Char} {ls : List (List Char)} {n : Nat} {line : List Char}
    (h : ls[n]? = some line) :
    templatesBefore xsl ls (n + 1) = templateStep xsl (templatesBefore xsl ls n) (line, n + 1) := by
  have hline : (ls.zipIdx 1)[n]? = some (line, n + 1) := by
    rw [List.getElem?_zipIdx, h, Option.map_some, Nat.add_comm]
  rw [templatesBefore, List.take_add_one, hline, Option.toList_some, List.foldl_append]
  rfl

/-- The templates of a stylesheet are those that are complete behind its last line. -/
theorem templates_eq (content : String) :
    templates content = (templatesBefore (instructionPrefix content.toList) (lines content.toList)
      (lines content.toList).length).2.reverse := by
  have hall : (((lines content.toList).zipIdx 1).take (lines content.toList).length) =
      (lines content.toList).zipIdx 1 := List.take_of_length_le (by simp)
  rw [templatesBefore, hall]
  rfl

section

variable {xsl : List Char} {ls : List (List Char)} {n : Nat} {line : List Char}

/-- The line shows the start tag of a template that is not closed at once. -/
def showsStart (xsl line : List Char) : Bool :=
  hasForm (instructionTag? xsl ["template"] false) line

/-- The line shows the end tag of a template. -/
def showsEnd (xsl line : List Char) : Bool :=
  hasForm (instructionClosing? xsl ["template"]) line

/-- A line completes the template that is open, or belongs to its body and changes the number of
templates open. -/
theorem continueTemplate_cases (xsl : List Char) (t : OpenTemplate) (n : Nat) (line : List Char) :
    (showsEnd xsl line = true ∧ (t.depth + if showsStart xsl line then 1 else 0) = 1 ∧
      continueTemplate xsl t n line =
        .inr ⟨String.ofList t.pattern, t.line, n, producedElements xsl t.body.reverse⟩) ∨
    ((showsEnd xsl line = true → (t.depth + if showsStart xsl line then 1 else 0) ≠ 1) ∧
      continueTemplate xsl t n line =
        .inl ⟨t.pattern, t.line, (t.depth + if showsStart xsl line then 1 else 0) -
          if showsEnd xsl line then 1 else 0, line :: t.body⟩) := by
  unfold continueTemplate
  change (_ ∧ _ ∧ (if showsEnd xsl line then _ else _) = _) ∨
    (_ ∧ (if showsEnd xsl line then _ else _) = _)
  cases hend : showsEnd xsl line with
  | false => exact Or.inr ⟨fun h => absurd h (by decide), rfl⟩
  | true =>
    by_cases hdepth : (t.depth + if showsStart xsl line then 1 else 0) = 1
    · exact Or.inl ⟨rfl, hdepth, by rw [if_pos rfl]; exact if_pos hdepth⟩
    · exact Or.inr ⟨fun _ => hdepth, by rw [if_pos rfl]; exact if_neg hdepth⟩

/-! ## Where templates lie -/

/-- The lines strictly between two, which are counted from 1. -/
def between (ls : List (List Char)) (i j : Nat) : List (List Char) :=
  (ls.drop i).take (j - i - 1)

/-- A complete template lies in the first `n` lines. -/
structure Template.Lies (xsl : List Char) (ls : List (List Char)) (n : Nat) (t : Template) :
    Prop where
  /-- Its line is counted from 1. -/
  line_pos : 1 ≤ t.line
  /-- Its end tag is on a later line than its start tag. -/
  line_lt : t.line < t.endLine
  /-- Its end tag is on one of the lines. -/
  endLine_le : t.endLine ≤ n
  /-- What it produces stands between its tags. -/
  produced_eq : t.produced = producedElements xsl (between ls t.line t.endLine)

/-- A template that is open begins in the first `n` lines. -/
structure OpenTemplate.Lies (ls : List (List Char)) (n : Nat) (t : OpenTemplate) : Prop where
  /-- Its line is counted from 1. -/
  line_pos : 1 ≤ t.line
  /-- Its start tag is on one of the lines. -/
  line_le : t.line ≤ n
  /-- Its body are the lines behind that one. -/
  body_eq : t.body.reverse = (ls.drop t.line).take (n - t.line)

/-- The templates read in the first `n` lines lie one behind the other. -/
structure Ordered (xsl : List Char) (ls : List (List Char)) (n : Nat)
    (state : Option OpenTemplate × List Template) : Prop where
  /-- The open template lies in the lines. -/
  opened : ∀ t ∈ state.1, t.Lies ls n
  /-- The complete templates lie in the lines. -/
  complete : ∀ t ∈ state.2, t.Lies xsl ls n
  /-- The open template begins behind all complete ones. -/
  behind : ∀ t ∈ state.1, ∀ u ∈ state.2, u.endLine < t.line
  /-- Of the complete templates the last one comes first. -/
  ordered : state.2.Pairwise fun t u => u.endLine < t.line

/-- A complete template lies in more lines too. -/
theorem Template.Lies.succ {t : Template} (h : t.Lies xsl ls n) : t.Lies xsl ls (n + 1) :=
  { h with endLine_le := Nat.le_succ_of_le h.endLine_le }

/-- The body of a template that is open goes on with the next line. -/
theorem OpenTemplate.Lies.succ {t : OpenTemplate} (h : t.Lies ls n) (hline : ls[n]? = some line)
    (depth : Nat) : OpenTemplate.Lies ls (n + 1) ⟨t.pattern, t.line, depth, line :: t.body⟩ where
  line_pos := h.line_pos
  line_le := Nat.le_succ_of_le h.line_le
  body_eq := by
    have hle := h.line_le
    have hnext : (ls.drop t.line)[n - t.line]? = some line := by
      rw [List.getElem?_drop, Nat.add_sub_cancel' hle, hline]
    rw [List.reverse_cons, h.body_eq, Nat.sub_add_comm hle, List.take_add_one, hnext,
      Option.toList_some]

/-- A template is complete on the line behind its body. -/
theorem OpenTemplate.Lies.complete {t : OpenTemplate} (h : t.Lies ls n) :
    Template.Lies xsl ls (n + 1)
      ⟨String.ofList t.pattern, t.line, n + 1, producedElements xsl t.body.reverse⟩ where
  line_pos := h.line_pos
  line_lt := Nat.lt_succ_of_le h.line_le
  endLine_le := Nat.le_refl _
  produced_eq := by
    have hcount : n + 1 - t.line - 1 = n - t.line := by omega
    rw [between, hcount, h.body_eq]

/-- One more line leaves the templates one behind the other. -/
theorem Ordered.step {state : Option OpenTemplate × List Template} (h : Ordered xsl ls n state)
    (hline : ls[n]? = some line) :
    Ordered xsl ls (n + 1) (templateStep xsl state (line, n + 1)) := by
  obtain ⟨opened, complete⟩ := state
  have hcomplete : ∀ t ∈ complete, t.Lies xsl ls (n + 1) := fun t ht => (h.complete t ht).succ
  cases opened with
  | none =>
    unfold templateStep
    refine ⟨fun t ht => ?_, hcomplete, fun t ht u hu => ?_, h.ordered⟩
    · obtain ⟨pattern, -, rfl⟩ := Option.map_eq_some_iff.mp ht
      exact ⟨Nat.succ_le_succ (Nat.zero_le n), Nat.le_refl _, by simp⟩
    · obtain ⟨pattern, -, rfl⟩ := Option.map_eq_some_iff.mp ht
      exact Nat.lt_succ_of_le (h.complete u hu).endLine_le
  | some t =>
    have ht := h.opened t rfl
    rcases continueTemplate_cases xsl t (n + 1) line with ⟨-, -, hdone⟩ | ⟨-, hmore⟩
    · simp only [templateStep, hdone]
      refine ⟨fun u hu => absurd hu (by simp), ?_, fun u hu => absurd hu (by simp), ?_⟩
      · exact List.forall_mem_cons.mpr ⟨ht.complete, hcomplete⟩
      · exact List.pairwise_cons.mpr ⟨h.behind t rfl, h.ordered⟩
    · simp only [templateStep, hmore]
      refine ⟨fun u hu => ?_, hcomplete, fun u hu => ?_, h.ordered⟩
      · obtain rfl := Option.some.inj hu
        exact ht.succ hline _
      · obtain rfl := Option.some.inj hu
        exact h.behind t rfl

/-- The templates read before any line lie one behind the other. -/
theorem ordered_templatesBefore (xsl : List Char) (ls : List (List Char)) (n : Nat)
    (hn : n ≤ ls.length) : Ordered xsl ls n (templatesBefore xsl ls n) := by
  induction n with
  | zero =>
    exact ⟨fun t ht => absurd ht (by simp), List.forall_mem_nil _,
      fun t ht => absurd ht (by simp), List.Pairwise.nil⟩
  | succ n ih =>
    have hline : ls[n]? = some ls[n] := List.getElem?_eq_getElem hn
    rw [templatesBefore_succ hline]
    exact (ih (Nat.le_of_succ_le hn)).step hline

end

/-! ## Names that are produced -/

/-- A name of ASCII letters and digits that begins with a letter. -/
def IsPlainName (name : List Char) : Prop :=
  (∃ c ∈ name.head?, c.isAlpha = true) ∧ ∀ c ∈ name, c.isAlphanum = true

/-- In the text stands a tag that opens an element of a business document with this local name. -/
def HasStartTag (text name : List Char) : Prop :=
  ∃ u, ∃ p ∈ documentPrefixes, ∃ rest, text = u ++ '<' :: (p.toList ++ ':' :: (name ++ rest)) ∧
    (∀ c ∈ name, endsName [c] = false) ∧ endsName rest = true

/-- In the text stands an instruction that creates an element with this local name, with or without
the prefix of a business document. -/
def HasInstruction (xsl text name : List Char) : Prop :=
  ∃ u blanks p rest, text = u ++ '<' :: (xsl ++ ":element".toList ++ (blanks ++
      ("name=\"".toList ++ (p ++ (name ++ '"' :: rest))))) ∧
    blanks ≠ [] ∧ (∀ c ∈ blanks, isBlank c = true) ∧
    (p = [] ∨ ∃ q ∈ documentPrefixes, p = q.toList ++ [':'])

/-- A character of a plain name ends no name. -/
theorem endsName_of_isAlphanum {c : Char} (h : c.isAlphanum = true) : endsName [c] = false :=
  endsName_cons_eq_false (Or.inl (by simp [isPrefixChar, h])) []

/-- A plain name is read as far as ASCII letters and digits go. -/
theorem plainName?_eq_some {s name rest : List Char} :
    plainName? s = some (name, rest) ↔
      s = name ++ rest ∧ IsPlainName name ∧ ∀ c ∈ rest.head?, c.isAlphanum = false := by
  constructor
  · intro h
    obtain ⟨hs, hchars⟩ := word?_eq_some h
    have hname : ∀ c ∈ name, c.isAlphanum = true := fun c hc =>
      (hchars c hc).elim (fun h => by simp [Char.isAlphanum, h]) id
    cases s with
    | nil => exact absurd h (by simp [plainName?, word?])
    | cons c s =>
      rw [plainName?, word?] at h
      split at h
      · rename_i hstart
        obtain ⟨rfl, rfl⟩ := Prod.mk.inj (Option.some.inj h)
        refine ⟨hs, ⟨⟨c, rfl, hstart⟩, hname⟩, fun d hd => ?_⟩
        have hhead := List.head?_dropWhile_not Char.isAlphanum s
        rw [Option.mem_def.mp hd] at hhead
        exact hhead
      · exact absurd h (by simp)
  · rintro ⟨rfl, ⟨⟨c, hc, hstart⟩, hname⟩, hrest⟩
    obtain ⟨t, rfl⟩ := List.head?_eq_some_iff.mp hc
    have ht : ∀ d ∈ t, d.isAlphanum = true := fun d hd => hname d (List.mem_cons_of_mem c hd)
    rw [List.cons_append, plainName?, word?, if_pos hstart, takeWhile_append_of_head hrest,
      dropWhile_append_of_head hrest, List.takeWhile_eq_self_iff.mpr ht,
      List.dropWhile_eq_nil_iff.mpr ht, List.nil_append]

/-- A document prefix is read with its colon. -/
theorem afterDocumentPrefix?_eq_some {s rest : List Char} :
    afterDocumentPrefix? s = some rest ↔ ∃ p ∈ documentPrefixes, s = p.toList ++ ':' :: rest := by
  constructor
  · intro h
    obtain ⟨p, hp, hrest⟩ := List.exists_of_findSome?_eq_some h
    refine ⟨p, hp, ?_⟩
    rw [after?_eq_some.mp hrest, List.append_assoc, List.singleton_append]
  · -- None of the prefixes begins another one.
    rintro ⟨p, hp, rfl⟩
    simp only [documentPrefixes, List.mem_cons, List.not_mem_nil, or_false] at hp
    rcases hp with rfl | rfl | rfl | rfl <;>
      simp [afterDocumentPrefix?, documentPrefixes, after?, List.isPrefixOf?]

/-- Only letters stand in a document prefix. -/
theorem not_mem_documentPrefix {p : String} (hp : p ∈ documentPrefixes) {c : Char}
    (hc : c.isAlpha = false) : c ∉ p.toList := by
  have hletters : (documentPrefixes.all fun q => q.toList.all Char.isAlpha) = true := by decide
  intro hmem
  have halpha := List.all_eq_true.mp (List.all_eq_true.mp hletters p hp) c hmem
  exact Bool.false_ne_true (hc.symm.trans halpha)

/-- A tag that opens an element of a business document is read with the beginning of its name. -/
theorem documentElement?_eq_some {s name rest : List Char} :
    documentElement? s = some (name, rest) ↔
      (∃ p ∈ documentPrefixes, s = '<' :: (p.toList ++ ':' :: (name ++ rest))) ∧
        IsPlainName name ∧ ∀ c ∈ rest.head?, c.isAlphanum = false := by
  constructor
  · intro h
    unfold documentElement? at h
    split at h
    · obtain ⟨t, ht, hname⟩ := Option.bind_eq_some_iff.mp h
      obtain ⟨p, hp, rfl⟩ := afterDocumentPrefix?_eq_some.mp ht
      obtain ⟨rfl, hplain, hrest⟩ := plainName?_eq_some.mp hname
      exact ⟨⟨p, hp, rfl⟩, hplain, hrest⟩
    · exact absurd h (by simp)
  · rintro ⟨⟨p, hp, rfl⟩, hplain, hrest⟩
    rw [documentElement?, afterDocumentPrefix?_eq_some.mpr ⟨p, hp, rfl⟩, Option.bind_some]
    exact plainName?_eq_some.mpr ⟨rfl, hplain, hrest⟩

/-- A name between quotes is read as a whole. -/
theorem quotedName?_eq_some {s name rest : List Char} :
    quotedName? s = some (name, rest) ↔ s = name ++ '"' :: rest ∧ IsPlainName name := by
  unfold quotedName?
  simp only [Option.bind_eq_bind, Option.bind_eq_some_iff, Option.some.injEq, Prod.mk.injEq]
  constructor
  · rintro ⟨⟨name', t⟩, hname, u, hu, rfl, rfl⟩
    obtain ⟨rfl, hplain, -⟩ := plainName?_eq_some.mp hname
    have ht : t = '"' :: u := after?_eq_some.mp hu
    exact ⟨by rw [ht], hplain⟩
  · rintro ⟨rfl, hplain⟩
    refine ⟨(name, '"' :: rest), plainName?_eq_some.mpr ⟨rfl, hplain, ?_⟩, rest, ?_, rfl, rfl⟩
    · exact head?_cons_eq_false (by decide) rest
    · exact after?_append ['"'] rest

/-- A name between quotes is read with or without a document prefix before it. -/
theorem prefixedName?_eq_some {s name rest : List Char} :
    ((afterDocumentPrefix? s).bind quotedName?).or (quotedName? s) = some (name, rest) ↔
      (∃ p, s = p ++ (name ++ '"' :: rest) ∧
        (p = [] ∨ ∃ q ∈ documentPrefixes, p = q.toList ++ [':'])) ∧ IsPlainName name := by
  constructor
  · intro h
    rcases Option.or_eq_some_iff.mp h with hbehind | ⟨-, hquoted⟩
    · obtain ⟨t, ht, hquoted⟩ := Option.bind_eq_some_iff.mp hbehind
      obtain ⟨q, hq, rfl⟩ := afterDocumentPrefix?_eq_some.mp ht
      obtain ⟨rfl, hplain⟩ := quotedName?_eq_some.mp hquoted
      exact ⟨⟨q.toList ++ [':'], by simp, Or.inr ⟨q, hq, rfl⟩⟩, hplain⟩
    · obtain ⟨rfl, hplain⟩ := quotedName?_eq_some.mp hquoted
      exact ⟨⟨[], rfl, Or.inl rfl⟩, hplain⟩
  · rintro ⟨⟨p, rfl, rfl | ⟨q, hq, rfl⟩⟩, hplain⟩
    · -- The colon of a prefix would stand in the name.
      have hnone : afterDocumentPrefix? (name ++ '"' :: rest) = none := by
        rw [Option.eq_none_iff_forall_not_mem]
        intro t ht
        obtain ⟨q, hq, heq⟩ := afterDocumentPrefix?_eq_some.mp ht
        rw [← List.singleton_append (x := ':'), ← List.append_assoc] at heq
        have hquote : '"' ∉ q.toList ++ [':'] := by
          simp [not_mem_documentPrefix hq (c := '"') (by decide)]
        obtain ⟨x, rfl, -⟩ := append_cons_eq_append hquote heq
        exact absurd (hplain.2 ':' (by simp)) (by decide)
      rw [List.nil_append, hnone]
      exact quotedName?_eq_some.mpr ⟨rfl, hplain⟩
    · have hbehind : afterDocumentPrefix? (q.toList ++ [':'] ++ (name ++ '"' :: rest)) =
          some (name ++ '"' :: rest) := afterDocumentPrefix?_eq_some.mpr ⟨q, hq, by simp⟩
      rw [hbehind, Option.bind_some, quotedName?_eq_some.mpr ⟨rfl, hplain⟩]
      rfl

/-- An instruction that creates an element is read with the name that is written out in it. -/
theorem elementInstruction?_eq_some {xsl s name rest : List Char} :
    elementInstruction? xsl s = some (name, rest) ↔
      (∃ blanks p, s = '<' :: (xsl ++ ":element".toList ++ (blanks ++
          ("name=\"".toList ++ (p ++ (name ++ '"' :: rest))))) ∧
        blanks ≠ [] ∧ (∀ c ∈ blanks, isBlank c = true) ∧
        (p = [] ∨ ∃ q ∈ documentPrefixes, p = q.toList ++ [':'])) ∧ IsPlainName name := by
  constructor
  · intro h
    unfold elementInstruction? at h
    split at h
    · obtain ⟨t, ht, h⟩ := Option.bind_eq_some_iff.mp h
      split at h
      · exact absurd h (by simp)
      rename_i hblanks
      obtain ⟨u, hu, h⟩ := Option.bind_eq_some_iff.mp h
      obtain rfl := Option.some.inj hu
      obtain ⟨v, hv, hname⟩ := Option.bind_eq_some_iff.mp h
      obtain ⟨⟨p, rfl, hp⟩, hplain⟩ := prefixedName?_eq_some.mp hname
      refine ⟨⟨t.takeWhile isBlank, p, ?_, by simpa using hblanks,
        fun c hc => List.mem_takeWhile_imp hc, hp⟩, hplain⟩
      rw [after?_eq_some.mp ht, ← after?_eq_some.mp hv, List.takeWhile_append_dropWhile]
    · exact absurd h (by simp)
  · rintro ⟨⟨blanks, p, rfl, hne, hblanks, hp⟩, hplain⟩
    have hhead : ∀ t, ∀ c ∈ ("name=\"".toList ++ t).head?, isBlank c = false :=
      fun t => head?_cons_eq_false (by decide) _
    rw [elementInstruction?, after?_append]
    simp only [Option.bind_eq_bind, Option.bind_some]
    rw [takeWhile_append_of_head (hhead _), dropWhile_append_of_head (hhead _),
      List.takeWhile_eq_self_iff.mpr hblanks, List.dropWhile_eq_nil_iff.mpr hblanks,
      if_neg (by simpa using hne), List.nil_append, after?_append, Option.bind_some]
    exact prefixedName?_eq_some.mpr ⟨⟨p, rfl, hp⟩, hplain⟩

/-- The elements of business documents that are collected from a text are those whose start tags
stand in it, each with the beginning of its name. -/
theorem mem_collect_documentElement {text name : List Char} :
    name ∈ collect documentElement? text ↔ IsPlainName name ∧
      ∃ full, HasStartTag text full ∧ full.takeWhile Char.isAlphanum = name := by
  have hform : ∀ s a rest, documentElement? s = some (a, rest) →
      ∃ t, s = '<' :: (t ++ rest) ∧ '<' ∉ t := by
    intro s a rest h
    obtain ⟨⟨p, hp, rfl⟩, hplain, -⟩ := documentElement?_eq_some.mp h
    refine ⟨p.toList ++ ':' :: a, by simp, ?_⟩
    have hname : '<' ∉ a := fun hmem => absurd (hplain.2 '<' hmem) (by decide)
    simp [not_mem_documentPrefix hp (c := '<') (by decide), hname]
  rw [mem_collect_iff hform]
  constructor
  · rintro ⟨v, rest, ⟨u, rfl⟩, hread⟩
    obtain ⟨⟨p, hp, rfl⟩, hplain, hrest⟩ := documentElement?_eq_some.mp hread
    -- The name of the element goes on behind what is read, up to a character that ends it.
    have hends : endsName (rest.dropWhile fun c => !endsName [c]) = true := by
      cases hdrop : rest.dropWhile fun c => !endsName [c] with
      | nil => rfl
      | cons c t =>
        have hhead := List.head?_dropWhile_not (fun c => !endsName [c]) rest
        rw [hdrop] at hhead
        exact (Bool.not_eq_false' (endsName [c])).mp hhead
    refine ⟨hplain, name ++ rest.takeWhile fun c => !endsName [c], ?_, ?_⟩
    · refine ⟨u, p, hp, rest.dropWhile fun c => !endsName [c], ?_, fun c hc => ?_, hends⟩
      · rw [List.append_assoc, List.takeWhile_append_dropWhile]
      · rcases List.mem_append.mp hc with hc | hc
        · exact endsName_of_isAlphanum (hplain.2 c hc)
        · simpa using List.mem_takeWhile_imp hc
    · rw [takeWhile_append_of_head, List.takeWhile_eq_self_iff.mpr hplain.2]
      intro c hc
      cases rest with
      | nil => exact absurd hc (by simp)
      | cons d t =>
        rw [List.takeWhile_cons] at hc
        split at hc
        · exact hrest c hc
        · exact absurd hc (by simp)
  · rintro ⟨hplain, full, ⟨u, p, hp, rest, rfl, -, hrest⟩, rfl⟩
    refine ⟨_, full.dropWhile Char.isAlphanum ++ rest, List.suffix_append u _,
      documentElement?_eq_some.mpr ⟨⟨p, hp, ?_⟩, hplain, fun c hc => ?_⟩⟩
    · rw [← List.append_assoc, List.takeWhile_append_dropWhile]
    · by_contra halnum
      rw [Bool.not_eq_false] at halnum
      cases hdrop : full.dropWhile Char.isAlphanum with
      | nil =>
        obtain ⟨t, rfl⟩ := List.head?_eq_some_iff.mp (by simpa [hdrop] using hc)
        exact absurd ((endsName_of_isAlphanum halnum).symm.trans hrest) (by decide)
      | cons d t =>
        have hhead := List.head?_dropWhile_not Char.isAlphanum full
        rw [hdrop] at hc hhead
        obtain rfl := Option.some.inj hc
        exact absurd (hhead.symm.trans halnum) (by decide)

/-- The instructions that are collected from a text are those that stand in it. -/
theorem mem_collect_elementInstruction {xsl text name : List Char} (hxsl : '<' ∉ xsl) :
    name ∈ collect (elementInstruction? xsl) text ↔
      IsPlainName name ∧ HasInstruction xsl text name := by
  have hform : ∀ s a rest, elementInstruction? xsl s = some (a, rest) →
      ∃ t, s = '<' :: (t ++ rest) ∧ '<' ∉ t := by
    intro s a rest h
    obtain ⟨⟨blanks, p, rfl, -, hblanks, hp⟩, hplain⟩ := elementInstruction?_eq_some.mp h
    refine ⟨xsl ++ ":element".toList ++ (blanks ++ ("name=\"".toList ++ (p ++ (a ++ ['"'])))),
      by simp, ?_⟩
    have hname : '<' ∉ a := fun hmem => absurd (hplain.2 '<' hmem) (by decide)
    have hblank : '<' ∉ blanks := fun hmem => absurd (hblanks '<' hmem) (by decide)
    have hqualifier : '<' ∉ p := by
      rcases hp with rfl | ⟨q, hq, rfl⟩
      · exact List.not_mem_nil
      · simp [not_mem_documentPrefix hq (c := '<') (by decide)]
    simp [hxsl, hname, hblank, hqualifier]
  rw [mem_collect_iff hform]
  constructor
  · rintro ⟨v, rest, ⟨u, rfl⟩, hread⟩
    obtain ⟨⟨blanks, p, rfl, hinside⟩, hplain⟩ := elementInstruction?_eq_some.mp hread
    exact ⟨hplain, u, blanks, p, rest, rfl, hinside⟩
  · rintro ⟨hplain, u, blanks, p, rest, rfl, hinside⟩
    exact ⟨_, rest, List.suffix_append u _,
      elementInstruction?_eq_some.mpr ⟨⟨blanks, p, rfl, hinside⟩, hplain⟩⟩

/-- An element with this local name is produced in the text: an instruction creates it, or the name
is the beginning of that of an element of a business document, up to its first character that is no
ASCII letter or digit. -/
def Produces (xsl text name : List Char) : Prop :=
  IsPlainName name ∧ (HasInstruction xsl text name ∨
    ∃ full, HasStartTag text full ∧ full.takeWhile Char.isAlphanum = name)

/-- The names reported as produced are those that the lines of the body produce. -/
theorem mem_producedElements {xsl : List Char} (hxsl : '<' ∉ xsl) {body : List (List Char)}
    {name : String} :
    name ∈ producedElements xsl body ↔ Produces xsl (['\n'].intercalate body) name.toList := by
  have hchars : ∀ names : List (List Char),
      name ∈ names.map String.ofList ↔ name.toList ∈ names := by
    intro names
    rw [List.mem_map]
    constructor
    · rintro ⟨n, hn, rfl⟩
      rwa [String.toList_ofList]
    · exact fun h => ⟨_, h, String.ofList_toList⟩
  rw [producedElements, List.mem_eraseDups, hchars, List.mem_append, mem_collect_documentElement,
    mem_collect_elementInstruction hxsl, or_comm, ← and_or_left]
  rfl

/-- Without its repetitions a list has none. -/
theorem nodup_eraseDups {α : Type} [BEq α] [LawfulBEq α] (l : List α) : l.eraseDups.Nodup := by
  induction hn : l.length using Nat.strongRecOn generalizing l with
  | _ n ih =>
    cases l with
    | nil => simp
    | cons a l =>
      have hlen := List.length_filter_le (fun b => !b == a) l
      rw [List.length_cons] at hn
      rw [List.eraseDups_cons, List.nodup_cons, List.mem_eraseDups]
      exact ⟨by simp, ih _ (by omega) _ rfl⟩

/-! ## The templates of a text -/

/-- The templates of any text lie one behind the other within its lines, and each is reported with
the names that the lines strictly between its tags produce, each name once. -/
theorem templates_spans (content : String) :
    ((templates content).Pairwise fun t u => t.endLine < u.line) ∧
    ∀ t ∈ templates content, 1 ≤ t.line ∧ t.line < t.endLine ∧
      t.endLine ≤ (lines content.toList).length ∧ t.produced.Nodup ∧
      ∀ name, name ∈ t.produced ↔ Produces (instructionPrefix content.toList)
        (['\n'].intercalate (between (lines content.toList) t.line t.endLine)) name.toList := by
  have hordered := ordered_templatesBefore (instructionPrefix content.toList)
    (lines content.toList) (lines content.toList).length (Nat.le_refl _)
  have hqualifier : '<' ∉ instructionPrefix content.toList := fun h =>
    absurd (isPrefixChar_of_mem_instructionPrefix h) (by decide)
  rw [templates_eq]
  refine ⟨List.pairwise_reverse.mpr hordered.ordered, fun t ht => ?_⟩
  have hlies := hordered.complete t (List.mem_reverse.mp ht)
  refine ⟨hlies.line_pos, hlies.line_lt, hlies.endLine_le, ?_, fun name => ?_⟩
  · rw [hlies.produced_eq]
    exact nodup_eraseDups _
  · rw [hlies.produced_eq]
    exact mem_producedElements hqualifier

end StylesheetTrace.Stylesheet
