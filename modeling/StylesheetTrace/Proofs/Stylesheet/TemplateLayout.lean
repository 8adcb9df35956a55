import StylesheetTrace.Proofs.Stylesheet.Nesting
import StylesheetTrace.Proofs.Stylesheet.TemplateTag

/-!
# Stylesheets laid out in templates

A stylesheet whose templates do not nest is a row of parts: its templates, with and without content,
and the tokens between them. Where each start tag fits on one line and begins it (`Flat`), the
templates take lines one behind the other: each ends on a line before the one on which the next one
begins (`pairwise_extents`).
-/

namespace StylesheetTrace.Stylesheet

open StylesheetTrace.Text StylesheetTrace.Markup

/-! ## Parts -/

/-- The qualified name of templates. -/
def templateName (xsl : List Char) : List Char :=
  xsl ++ ":template".toList

/-- A part of a stylesheet: a token outside templates, a template without content, or a template
with its content and the blanks in its end tag. -/
inductive Part where
  | token (t : Token)
  | empty (tag : TemplateTag)
  | template (tag : TemplateTag) (content : List Token) (blanks : List Char)

/-- The start tag of a template with content. -/
def startTag (xsl : List Char) (tag : TemplateTag) : Token :=
  .opens (templateName xsl) (tag.inside false)

namespace Part

/-- The tokens of a part. -/
def tokens (xsl : List Char) : Part → List Token
  | token t => [t]
  | empty tag => [.empty (templateName xsl) (tag.inside false)]
  | template tag content blanks =>
    startTag xsl tag :: (content ++ [.closes (templateName xsl) blanks])

/-- The tokens of a part other than the tags of its template. -/
def others : Part → List Token
  | token t => [t]
  | empty _ => []
  | template _ content _ => content

/-- The start tag of the template that a part is. -/
def tag? : Part → Option TemplateTag
  | token _ => none
  | empty tag => some tag
  | template tag _ _ => some tag

end Part

/-- The tokens of a stylesheet. -/
def document (xsl : List Char) (parts : List Part) : List Token :=
  parts.flatMap (Part.tokens xsl)

/-- The name of a tag. -/
def Token.name? : Token → Option (List Char)
  | opens name _ => some name
  | empty name _ => some name
  | closes name _ => some name
  | _ => none

/-- Behind its last line feed the text has nothing but blanks. -/
def beginsLine (s : List Char) : Bool :=
  (s.reverse.takeWhile (· != '\n')).all isBlank

/-- The parts make up a stylesheet with the prefix `xsl` whose templates do not nest. -/
structure Flat (xsl : List Char) (parts : List Part) : Prop where
  /-- The stylesheet binds the prefix. -/
  binds : instructionPrefix (render (document xsl parts)) = xsl
  /-- The tokens are sound. -/
  sound : ∀ t ∈ document xsl parts, t.Sound
  /-- Outside templates and in their content no tag is one of a template. -/
  apart : ∀ p ∈ parts, ∀ t ∈ p.others, t.name? ≠ some (templateName xsl)
  /-- The start tag of a template fits on one line, which it begins. -/
  begins : ∀ ps p qs, parts = ps ++ p :: qs → ∀ tag ∈ p.tag?,
    '\n' ∉ tag.inside false ∧ beginsLine (render (document xsl ps)) = true

/-- The tokens of two rows of parts. -/
@[simp]
theorem document_append (xsl : List Char) (ps qs : List Part) :
    document xsl (ps ++ qs) = document xsl ps ++ document xsl qs :=
  List.flatMap_append

/-- The tokens of a row of parts begin with those of the first one. -/
@[simp]
theorem document_cons (xsl : List Char) (p : Part) (ps : List Part) :
    document xsl (p :: ps) = p.tokens xsl ++ document xsl ps :=
  List.flatMap_cons

/-! ## Beginnings of lines -/

/-- What stands before the beginning of a line, on this line, are blanks. -/
theorem blank_of_beginsLine {u v : List Char} (h : beginsLine (u ++ v) = true) (hv : '\n' ∉ v) :
    ∀ c ∈ v, isBlank c = true := by
  have hline : ∀ c ∈ v.reverse, (c != '\n') = true := by
    intro c hc
    rw [bne_iff_ne]
    rintro rfl
    exact hv (List.mem_reverse.mp hc)
  rw [beginsLine, List.reverse_append, List.takeWhile_append_of_pos hline, List.all_append,
    Bool.and_eq_true] at h
  exact fun c hc => List.all_eq_true.mp h.1 c (List.mem_reverse.mpr hc)

/-- Behind a tag that stands before the beginning of a line the line before that ends. -/
theorem feed_mem_of_beginsLine {u v : List Char} (h : beginsLine (u ++ '<' :: v) = true) :
    '\n' ∈ v := by
  by_contra hv
  have hblank := blank_of_beginsLine h (v := '<' :: v) (by simpa using hv) '<' List.mem_cons_self
  exact absurd hblank (by decide)

/-- Whether a line begins behind a text is seen at the end of the text. -/
theorem beginsLine_of_append {u v : List Char} (h : beginsLine (u ++ v) = true) :
    beginsLine v = true := by
  rw [beginsLine, List.all_eq_true] at h ⊢
  intro c hc
  refine h c ?_
  rw [List.reverse_append, List.takeWhile_append]
  split
  · rename_i hall
    exact List.mem_append_left _ ((List.takeWhile_prefix _).subset hc)
  · exact hc

/-- Before a line and blanks on it a line begins. -/
theorem beginsLine_textBefore {n : Nat} {s indent : List Char} (hn : n < (lines s).length)
    (hindent : ∀ c ∈ indent, isBlank c = true) : beginsLine (textBefore n s ++ indent) = true := by
  have hblank : ∀ c ∈ indent.reverse.takeWhile (· != '\n'), isBlank c = true := fun c hc =>
    hindent c (List.mem_reverse.mp ((List.takeWhile_prefix _).subset hc))
  rw [beginsLine, List.all_eq_true]
  rcases textBefore_eq n s hn with htext | ⟨t, htext⟩
  · rw [htext, List.nil_append]
    exact hblank
  · have hhead : ∀ c ∈ ('\n' :: t.reverse).head?, (c != '\n') = false :=
      head?_cons_eq_false (by decide) _
    rw [htext, List.reverse_append, List.reverse_append, List.reverse_singleton,
      List.singleton_append, takeWhile_append_of_head hhead]
    exact hblank

/-! ## Extents -/

/-- Where a template with content stands. -/
structure Extent where
  /-- The start tag. -/
  tag : TemplateTag
  /-- The blanks in the end tag. -/
  blanks : List Char
  /-- The line on which the start tag begins, counted from zero. -/
  start : Nat
  /-- The line on which the end tag begins, counted from zero. -/
  stop : Nat

/-- The extent of a template that begins on line `i`. -/
def Part.extent? (xsl : List Char) (i : Nat) : Part → Option Extent
  | template tag content blanks =>
    some ⟨tag, blanks, i, i + (render (startTag xsl tag :: content)).count '\n'⟩
  | _ => none

/-- The extents of the templates of a stylesheet, of which the first part begins on line `i`. -/
def extents (xsl : List Char) (i : Nat) : List Part → List Extent
  | [] => []
  | p :: ps =>
    (p.extent? xsl i).toList ++ extents xsl (i + (render (p.tokens xsl)).count '\n') ps

/-- The extent of a part is that of its template. -/
theorem Part.extent?_eq_some {xsl : List Char} {i : Nat} {p : Part} {e : Extent} :
    p.extent? xsl i = some e ↔ ∃ content, p = .template e.tag content e.blanks ∧ e.start = i ∧
      e.stop = i + (render (startTag xsl e.tag :: content)).count '\n' := by
  cases p with
  | template tag content blanks =>
    simp only [extent?, Option.some.injEq, template.injEq]
    constructor
    · rintro rfl
      exact ⟨content, ⟨rfl, rfl, rfl⟩, rfl, rfl⟩
    · rintro ⟨_, ⟨rfl, rfl, rfl⟩, rfl, hstop⟩
      rw [← hstop]
  | token t => simp [extent?]
  | empty tag => simp [extent?]

/-- The number of line feeds in two rows of tokens. -/
theorem count_render_append (ps qs : List Token) :
    (render (ps ++ qs)).count '\n' = (render ps).count '\n' + (render qs).count '\n' := by
  rw [render_append, List.count_append]

/-- An extent is that of a template, which stands behind the parts before it. -/
theorem mem_extents {xsl : List Char} {i : Nat} {parts : List Part} {e : Extent} :
    e ∈ extents xsl i parts ↔ ∃ ps p qs, parts = ps ++ p :: qs ∧
      p.extent? xsl (i + (render (document xsl ps)).count '\n') = some e := by
  induction parts generalizing i with
  | nil => simp [extents]
  | cons p parts ih =>
    rw [extents, List.mem_append, Option.mem_toList, ih]
    constructor
    · rintro (he | ⟨ps, q, qs, rfl, he⟩)
      · exact ⟨[], p, parts, rfl, he⟩
      · refine ⟨p :: ps, q, qs, rfl, ?_⟩
        rw [document_cons, count_render_append, ← Nat.add_assoc]
        exact he
    · rintro ⟨ps, q, qs, hparts, he⟩
      cases ps with
      | nil =>
        obtain ⟨rfl, rfl⟩ := List.cons.inj hparts
        exact Or.inl he
      | cons p' ps =>
        obtain ⟨rfl, rfl⟩ := List.cons.inj hparts
        refine Or.inr ⟨ps, q, qs, rfl, ?_⟩
        rw [document_cons, count_render_append, ← Nat.add_assoc] at he
        exact he

section

variable {xsl : List Char} {parts : List Part}

/-- A template ends on a line before the one on which a later start tag of a template stands. -/
theorem Flat.stop_lt (hflat : Flat xsl parts) {ps qs rs : List Part} {p q : Part} {e : Extent}
    (hparts : parts = ps ++ p :: (qs ++ q :: rs))
    (he : p.extent? xsl ((render (document xsl ps)).count '\n') = some e)
    (hq : q.tag?.isSome = true) :
    e.stop < (render (document xsl (ps ++ p :: qs))).count '\n' := by
  obtain ⟨content, rfl, -, hstop⟩ := Part.extent?_eq_some.mp he
  obtain ⟨tag, htag⟩ := Option.isSome_iff_exists.mp hq
  have hbegins := (hflat.begins (ps ++ .template e.tag content e.blanks :: qs) q rs
    (by rw [hparts]; simp) tag htag).2
  -- The end tag stands before the beginning of the line of the later start tag.
  have htext : render (document xsl (ps ++ .template e.tag content e.blanks :: qs)) =
      (render (document xsl ps) ++ render (startTag xsl e.tag :: content)) ++
        '<' :: ('/' :: (templateName xsl ++ (e.blanks ++ ['>'])) ++ render (document xsl qs)) := by
    simp [Part.tokens, Token.chars, render]
  rw [htext] at hbegins ⊢
  have hfeed := List.count_pos_iff.mpr (feed_mem_of_beginsLine hbegins)
  rw [List.count_append, List.count_append, List.count_cons_of_ne (by decide)]
  omega

/-- A template ends on the line of its start tag or behind it. -/
theorem start_le_stop {i : Nat} {e : Extent} (he : e ∈ extents xsl i parts) : e.start ≤ e.stop := by
  obtain ⟨ps, p, qs, -, hp⟩ := mem_extents.mp he
  obtain ⟨content, -, hstart, hstop⟩ := Part.extent?_eq_some.mp hp
  rw [hstart, hstop]
  exact Nat.le_add_right _ _

/-- The templates of a flat stylesheet take lines one behind the other. -/
theorem Flat.pairwise_extents (hflat : Flat xsl parts) :
    (extents xsl 0 parts).Pairwise fun d e => d.stop < e.start := by
  -- The induction is on the parts that are left, behind those that have been passed.
  have hbehind : ∀ ps qs, parts = ps ++ qs →
      (extents xsl ((render (document xsl ps)).count '\n') qs).Pairwise
        fun d e => d.stop < e.start := by
    intro ps qs
    induction qs generalizing ps with
    | nil => exact fun _ => List.Pairwise.nil
    | cons p qs ih =>
      intro hparts
      have hrest := ih (ps ++ [p]) (by rw [hparts, List.append_assoc, List.singleton_append])
      have hline : (render (document xsl (ps ++ [p]))).count '\n' =
          (render (document xsl ps)).count '\n' + (render (p.tokens xsl)).count '\n' := by
        rw [document_append, count_render_append]
        simp [document]
      rw [hline] at hrest
      rw [extents]
      cases he : p.extent? xsl ((render (document xsl ps)).count '\n') with
      | none => exact hrest
      | some d =>
        refine List.pairwise_cons.mpr ⟨fun e hmem => ?_, hrest⟩
        obtain ⟨rs, q, ss, rfl, hq⟩ := mem_extents.mp hmem
        obtain ⟨content, rfl, hstart, -⟩ := Part.extent?_eq_some.mp hq
        have hlt := hflat.stop_lt hparts he rfl
        rw [document_append, document_cons, count_render_append, count_render_append,
          ← Nat.add_assoc] at hlt
        rw [hstart]
        exact hlt
  exact hbehind [] parts rfl

/-- No start tag of a template stands on a later line of another template. -/
theorem Flat.start_outside (hflat : Flat xsl parts) {e : Extent} (he : e ∈ extents xsl 0 parts)
    {ps qs : List Part} {p : Part} (hparts : parts = ps ++ p :: qs) (hp : p.tag?.isSome = true) :
    (render (document xsl ps)).count '\n' ≤ e.start ∨
      e.stop < (render (document xsl ps)).count '\n' := by
  obtain ⟨rs, r, ss, hparts', hr⟩ := mem_extents.mp he
  rw [Nat.zero_add] at hr
  rw [hparts'] at hparts
  obtain ⟨content, -, hstart, -⟩ := Part.extent?_eq_some.mp hr
  rcases List.append_eq_append_iff.mp hparts with ⟨as, rfl, has⟩ | ⟨as, rfl, -⟩
  · cases as with
    | nil => exact Or.inl (by rw [List.append_nil, hstart])
    | cons a as =>
      obtain ⟨rfl, rfl⟩ := List.cons.inj has
      exact Or.inr (hflat.stop_lt hparts' hr hp)
  · refine Or.inl ?_
    rw [hstart, document_append, count_render_append]
    exact Nat.le_add_right _ _

/-! ## Tags of templates -/

/-- Which tag of a template a token is: the one of a template without content, or the start or the
end tag of one with content. -/
theorem Flat.tag_cases (hflat : Flat xsl parts) {ts us : List Token} {t : Token}
    (h : document xsl parts = ts ++ t :: us) (ht : t.name? = some (templateName xsl)) :
    ∃ ps p qs, parts = ps ++ p :: qs ∧
      ((∃ tag, p = .empty tag ∧ t = .empty (templateName xsl) (tag.inside false) ∧
          ts = document xsl ps) ∨
        ∃ tag content blanks, p = .template tag content blanks ∧
          (t = startTag xsl tag ∧ ts = document xsl ps ∨
            t = .closes (templateName xsl) blanks ∧
              ts = document xsl ps ++ startTag xsl tag :: content)) := by
  obtain ⟨ps, p, qs, as, bs, rfl, hp, rfl, -⟩ := flatMap_eq_append_cons h
  refine ⟨ps, p, qs, rfl, ?_⟩
  have hother : t ∉ p.others := fun hmem => hflat.apart p (by simp) t hmem ht
  cases p with
  | token t' =>
    have hsingle : [t'] = as ++ t :: bs := hp
    exact absurd (show t ∈ [t'] by rw [hsingle]; simp) hother
  | empty tag =>
    cases as with
    | nil =>
      obtain ⟨rfl, -⟩ := List.cons.inj hp
      exact Or.inl ⟨tag, rfl, rfl, by simp [document]⟩
    | cons a as => exact absurd (List.cons.inj hp).2 (by simp)
  | template tag content blanks =>
    refine Or.inr ⟨tag, content, blanks, rfl, ?_⟩
    cases as with
    | nil =>
      obtain ⟨rfl, -⟩ := List.cons.inj hp
      exact Or.inl ⟨rfl, by simp [document]⟩
    | cons a as =>
      obtain ⟨rfl, hrest⟩ := List.cons.inj hp
      rcases List.append_eq_append_iff.mp hrest with ⟨cs, rfl, hcs⟩ | ⟨cs, hcontent, hcs⟩
      · cases cs with
        | nil =>
          obtain ⟨rfl, -⟩ := List.cons.inj hcs
          exact Or.inr ⟨rfl, by simp [document]⟩
        | cons c cs => exact absurd (List.cons.inj hcs).2 (by simp)
      · cases cs with
        | nil =>
          obtain ⟨rfl, -⟩ := List.cons.inj hcs
          exact Or.inr ⟨rfl, by simp [document, hcontent]⟩
        | cons c cs =>
          obtain ⟨rfl, -⟩ := List.cons.inj hcs
          exact absurd (show t ∈ content by rw [hcontent]; simp) hother

end

end StylesheetTrace.Stylesheet
