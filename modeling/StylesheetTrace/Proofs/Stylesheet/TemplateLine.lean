import StylesheetTrace.Proofs.Stylesheet.TemplateLayout
import StylesheetTrace.Proofs.Stylesheet.TemplateSpan

/-!
# What the lines of templates show

The search for templates reads a stylesheet line by line, and what it sees on a line need not be
what stands there. For a flat stylesheet the layouts that mislead it are named (`Misread`). In all
others a line shows a start tag only where a template begins, with the pattern that the template
has, and an end tag only where one ends (`readings`).
-/

namespace StylesheetTrace.Stylesheet

open StylesheetTrace.Text StylesheetTrace.Markup
open StylesheetTrace.Report (visible)

/-! ## Looks of tags -/

/-- A text looks like the start tag of a template: the name of templates stands behind `<`, as a
word. -/
def LooksStart (xsl s : List Char) : Prop :=
  ∃ r, s = '<' :: (templateName xsl ++ r) ∧ endsWord r = true

/-- A text looks like the end tag of a template: blanks and `>` stand behind the name. -/
def LooksEnd (xsl s : List Char) : Prop :=
  ∃ blanks r, s = '<' :: '/' :: (templateName xsl ++ (blanks ++ '>' :: r)) ∧
    ∀ c ∈ blanks, isBlank c = true

section

variable {xsl line : List Char}

/-- The name of templates is read where it stands. -/
theorem afterInstruction?_template {s r : List Char} :
    afterInstruction? xsl ["template"] s = some r ↔ s = templateName xsl ++ r := by
  simp only [afterInstruction?, List.findSome?_singleton, Option.bind_eq_some_iff, after?_eq_some]
  constructor
  · rintro ⟨t, rfl, rfl⟩
    simp [templateName]
  · rintro rfl
    exact ⟨"template".toList ++ r, by simp [templateName], rfl⟩

/-- The beginning of the start tag of a template is read where a text looks like it. -/
theorem instructionOpening?_template {s r : List Char} :
    instructionOpening? xsl ["template"] s = some ((), r) ↔
      s = '<' :: (templateName xsl ++ r) ∧ endsWord r = true := by
  unfold instructionOpening?
  split
  · simp only [Option.bind_eq_some_iff, afterInstruction?_template, List.cons.injEq, true_and]
    constructor
    · rintro ⟨t, rfl, ht⟩
      split at ht
      · rename_i hends
        obtain rfl := (Prod.mk.inj (Option.some.inj ht)).2
        exact ⟨rfl, hends⟩
      · exact absurd ht (by simp)
    · rintro ⟨rfl, hends⟩
      exact ⟨r, rfl, if_pos hends⟩
  · rename_i hother
    refine iff_of_false (by simp) ?_
    rintro ⟨rfl, -⟩
    exact hother _ rfl

/-- A line that shows the start tag of a template has on it what looks like one. -/
theorem looksStart_of_showsStart (h : showsStart xsl line = true) :
    ∃ p s, line = p ++ s ∧ LooksStart xsl s := by
  obtain ⟨s, ⟨p, rfl⟩, hs⟩ := hasForm_iff.mp h
  obtain ⟨form, hform⟩ := Option.isSome_iff_exists.mp hs
  obtain ⟨⟨⟨⟩, r⟩, hopening, -⟩ := Option.bind_eq_some_iff.mp hform
  exact ⟨p, s, rfl, r, instructionOpening?_template.mp hopening⟩

/-- A line that opens a template begins, behind blanks, with what looks like its start tag. -/
theorem looksStart_of_openedPattern? {pattern : List Char}
    (h : openedPattern? xsl line = some pattern) :
    ∃ indent s, line = indent ++ s ∧ (∀ c ∈ indent, isBlank c = true) ∧ LooksStart xsl s := by
  obtain ⟨r, hr, hpattern⟩ := Option.bind_eq_some_iff.mp h
  split at hpattern
  · rename_i hends
    refine ⟨line.takeWhile isBlank, line.dropWhile isBlank, List.takeWhile_append_dropWhile.symm,
      fun c hc => List.mem_takeWhile_imp hc, r, ?_, hends⟩
    simpa [templateName] using after?_eq_some.mp hr
  · exact absurd hpattern (by simp)

/-- A line shows the end tag of a template where something looks like one. -/
theorem showsEnd_iff : showsEnd xsl line = true ↔ ∃ p s, line = p ++ s ∧ LooksEnd xsl s := by
  rw [showsEnd, hasForm_iff]
  constructor
  · rintro ⟨s, ⟨p, rfl⟩, hs⟩
    refine ⟨p, s, rfl, ?_⟩
    obtain ⟨form, hform⟩ := Option.isSome_iff_exists.mp hs
    unfold instructionClosing? at hform
    split at hform
    · obtain ⟨t, ht, hform⟩ := Option.bind_eq_some_iff.mp hform
      obtain ⟨rest, hrest, -⟩ := Option.bind_eq_some_iff.mp hform
      refine ⟨t.takeWhile isBlank, rest, ?_, fun c hc => List.mem_takeWhile_imp hc⟩
      have hdrop : t.dropWhile isBlank = '>' :: rest := after?_eq_some.mp hrest
      rw [← hdrop, List.takeWhile_append_dropWhile, ← afterInstruction?_template.mp ht]
    · exact absurd hform (by simp)
  · rintro ⟨p, s, rfl, blanks, r, rfl, hblanks⟩
    refine ⟨_, List.suffix_append p _, ?_⟩
    rw [instructionClosing?, afterInstruction?_template.mpr rfl]
    simp [afterEnd?_append hblanks]

/-- A start tag that does not seem to close its element is shown on its line. -/
theorem showsStart_tag {t : TemplateTag} (h : endsWithSlash (visible (t.inside false)) = false)
    (p q : List Char) :
    showsStart xsl (p ++ '<' :: (templateName xsl ++ (t.inside false ++ '>' :: q))) = true := by
  refine hasForm_iff.mpr ⟨_, List.suffix_append p _, ?_⟩
  obtain ⟨q', hinside⟩ := tagInside?_visible (t.inside false) q
  rw [instructionTag?, instructionOpening?_template.mpr ⟨rfl, t.endsWord_inside false q⟩]
  simp [hinside, h]

end

/-! ## Layouts that mislead the search -/

/-- On line `k` an aside goes on, behind `before`, with a text that looks like a tag. -/
def Shows (doc : List Token) (looks : List Char → Prop) (k : Nat) (before : List Char) : Prop :=
  ∃ i kind inside rest, (i, .aside kind inside) ∈ numbered 0 doc ∧
    (Token.aside kind inside).chars = before ++ rest ∧ i + before.count '\n' = k ∧ looks rest

/-- The search for a template with a pattern does not come to its end tag: the end tag stands on the
line of the start tag, or spans lines. -/
def Extent.isLost (e : Extent) : Bool :=
  e.tag.pattern?.isSome && decide (e.start = e.stop ∨ '\n' ∈ e.blanks)

/-- How the search for the templates of a flat stylesheet can be misled. A start tag is read otherwise
than it is meant; the name of another element begins like that of templates; an aside goes on at the
beginning of a line with what looks like a start tag; or one that goes on behind the first line of a
template with a pattern holds what looks like a tag of a template, where the search for the end tag
comes to it. -/
inductive Misread (xsl : List Char) (parts : List Part) : Prop where
  | empty {tag : TemplateTag} (ht : .empty tag ∈ parts) (h : Obscured tag true)
  | tag {e : Extent} (he : e ∈ extents xsl 0 parts) (h : Obscured e.tag false)
  | alike {t : Token} {name : List Char} (ht : t ∈ document xsl parts) (hname : t.name? = some name)
      (hother : name ≠ templateName xsl) (h : LooksStart xsl ('<' :: name))
  | begins {k : Nat} {before : List Char} (hbefore : beginsLine before = true)
      (h : Shows (document xsl parts) (LooksStart xsl) k before)
  | inner {e : Extent} {k : Nat} {before : List Char} (he : e ∈ extents xsl 0 parts)
      (hpattern : e.tag.pattern?.isSome = true) (hstart : e.start < k) (hstop : k ≤ e.stop)
      (h : Shows (document xsl parts) (LooksStart xsl) k before)
  | ends {e : Extent} {k : Nat} {before : List Char} (he : e ∈ extents xsl 0 parts)
      (hpattern : e.tag.pattern?.isSome = true) (hstart : e.start < k)
      (hstop : e.isLost = true ∨ k ≤ e.stop)
      (h : Shows (document xsl parts) (LooksEnd xsl) k before)

/-! ## Tags on lines -/

/-- What looks like an end tag on a line belongs to an aside, or to an end tag whose name begins with
the one that is seen, and which has the blanks that are seen if the names are the same. -/
theorem token_of_end {doc : List Token} {k : Nat} {p word blanks r : List Char}
    (hsound : ∀ t ∈ doc, t.Sound) (hword : ∀ d, Separates d → d ∉ word)
    (hblanks : ∀ c ∈ blanks, isBlank c = true)
    (hline : (lines (render doc))[k]? = some (p ++ '<' :: '/' :: (word ++ (blanks ++ '>' :: r)))) :
    ∃ ps t qs, doc = ps ++ t :: qs ∧
      ((∃ kind inside a y, t = .aside kind inside ∧
          t.chars = a ++ '<' :: '/' :: (word ++ (blanks ++ '>' :: y)) ∧
          (render ps).count '\n' + a.count '\n' = k) ∨
        ∃ x spaces, t = .closes (word ++ x) spaces ∧ endsWord x = true ∧ (x = [] → spaces = blanks) ∧
          (render ps).count '\n' = k) := by
  obtain ⟨ps, t, qs, a, b, rest, rfl, hchars, -, hbehind, -, hcount⟩ := token_of_lt hline
  have ht : t.Sound := hsound t (List.mem_append_right ps List.mem_cons_self)
  have hgt : '>' ∉ blanks := fun hmem => absurd (hblanks '>' hmem) (by decide)
  have hbehind : b ++ render qs = '/' :: (word ++ blanks) ++ '>' :: (r ++ rest) := by
    rw [← hbehind]
    simp
  rcases Token.lt_cases ht hchars with ⟨kind, inside, rfl⟩ | ⟨rfl, htag⟩
  · -- The end tag lies in the aside, whose last `>` is that of the tag or stands behind it.
    obtain ⟨b, rfl⟩ := aside_tail hchars
    rw [List.append_assoc, List.singleton_append] at hbehind
    obtain ⟨x, rfl, hx⟩ := append_cons_eq_append
      (by simp [hgt, hword '>' (by decide)]) hbehind
    obtain ⟨y, hy⟩ : ∃ y, x ++ ['>'] = '>' :: y := by
      cases x with
      | nil => exact ⟨[], rfl⟩
      | cons c x => exact ⟨x ++ ['>'], by rw [(List.cons.inj hx).1]; rfl⟩
    refine ⟨ps, _, qs, rfl, Or.inl ⟨kind, inside, a, y, rfl, ?_, hcount⟩⟩
    rw [hchars, List.append_assoc, hy]
    simp
  · rw [List.count_nil, Nat.add_zero] at hcount
    -- Behind the `<` of a tag that opens an element stands no slash.
    have hslash : ∀ name x, IsName name → b ≠ name ++ x := by
      rintro name x hname rfl
      obtain ⟨c, name, rfl, -⟩ := hname.eq_cons
      obtain rfl : c = '/' := (List.cons.inj hbehind).1
      exact absurd (List.all_eq_true.mp hname.2 '/' List.mem_cons_self) (by decide)
    rcases htag with ⟨name, attributes, rfl⟩ | ⟨name, attributes, rfl⟩ | ⟨name, spaces, rfl⟩
    · exact absurd (List.cons.inj hchars).2.symm (hslash _ _ ht.1)
    · exact absurd (List.cons.inj hchars).2.symm (hslash _ _ ht.1)
    · have hb : '/' :: (name ++ (spaces ++ ['>'])) = b := (List.cons.inj hchars).2
      have hname : name ++ (spaces ++ '>' :: render qs) =
          word ++ (blanks ++ '>' :: (r ++ rest)) := by
        rw [← hb] at hbehind
        simpa using hbehind
      have hspaces : '>' ∉ spaces := fun hmem =>
        absurd (List.all_eq_true.mp ht.2 '>' hmem) (by decide)
      have hhead : spaces.head?.all isSpace = true := by
        have hall := ht.2
        cases spaces <;> simp_all
      obtain ⟨d, u, hd, hseparates⟩ := behind_name hhead (c := '>') (by decide) (render qs)
      have hends : endsWord (blanks ++ '>' :: (r ++ rest)) = true := by
        cases blanks with
        | nil => rfl
        | cons c blanks => simp [endsWord, isWord_of_isBlank (hblanks c List.mem_cons_self)]
      obtain ⟨x, rfl, hx⟩ := append_of_word (hd ▸ hname) (hword d hseparates) hends
      refine ⟨ps, _, qs, rfl, Or.inr ⟨x, spaces, rfl, hx, ?_, hcount⟩⟩
      rintro rfl
      rw [List.append_nil] at hname
      -- The blanks are what stands before the first `>`.
      have hvisible := congrArg visible (List.append_cancel_left hname)
      rw [Report.visible_append hspaces, Report.visible_append hgt] at hvisible
      simpa [visible] using hvisible

section

variable {xsl : List Char} {parts : List Part} {k : Nat} {line : List Char}

/-- The name of templates holds no character that stands in no name. -/
theorem Flat.not_mem_templateName (hflat : Flat xsl parts) {d : Char}
    (hd : isPrefixChar d = false) (hcolon : d ≠ ':') : d ∉ templateName xsl := by
  rw [← hflat.binds]
  exact not_mem_bodyName (isBodyName_iff.mpr ⟨"template", by decide, rfl⟩) hd hcolon

/-- A tag whose name begins like that of templates, as a word, is one of a template. -/
theorem eq_nil_of_not_misread (hread : ¬ Misread xsl parts) {t : Token} {x : List Char}
    (ht : t ∈ document xsl parts) (hname : t.name? = some (templateName xsl ++ x))
    (hx : endsWord x = true) : x = [] := by
  by_contra hne
  exact hread (.alike ht hname (by simpa using hne) ⟨x, rfl, hx⟩)

/-- What looks like a start tag of a template on a line is shown by an aside, or a start tag of a
template begins there. -/
theorem Flat.start_on_line (hflat : Flat xsl parts) (hread : ¬ Misread xsl parts)
    {p s : List Char} (hline : (lines (render (document xsl parts)))[k]? = some (p ++ s))
    (h : LooksStart xsl s) :
    (∃ ts before, textBefore k (render (document xsl parts)) ++ p = render ts ++ before ∧
      Shows (document xsl parts) (LooksStart xsl) k before) ∨
    ∃ ps q qs, parts = ps ++ q :: qs ∧ q.tag?.isSome = true ∧
      (render (document xsl ps)).count '\n' = k := by
  obtain ⟨r, rfl, hends⟩ := h
  obtain ⟨ts, t, us, x, hdoc, hx, htoken⟩ := token_of_word hflat.sound (by simp [templateName])
    (fun d hd => hflat.not_mem_templateName hd.1 hd.2.1) hline hends
  have hmem : t ∈ document xsl parts := by rw [hdoc]; simp
  rcases htoken with ⟨kind, inside, a, rfl, hchars, hbefore, hcount⟩ | ⟨attributes, htag, hcount⟩
  · exact Or.inl ⟨ts, a, hbefore, _, kind, inside, _, mem_numbered.mpr ⟨ts, us, hdoc, rfl⟩, hchars,
      hcount, x, rfl, hx⟩
  · have hname : t.name? = some (templateName xsl ++ x) := by rcases htag with rfl | rfl <;> rfl
    obtain rfl := eq_nil_of_not_misread hread hmem hname hx
    rw [List.append_nil] at hname
    obtain ⟨ps, q, qs, hparts, ⟨tag, rfl, -, rfl⟩ |
      ⟨tag, content, blanks, rfl, ⟨-, rfl⟩ | ⟨rfl, -⟩⟩⟩ := hflat.tag_cases hdoc hname
    · exact Or.inr ⟨ps, _, qs, hparts, rfl, hcount⟩
    · exact Or.inr ⟨ps, _, qs, hparts, rfl, hcount⟩
    · exact absurd htag (by simp)

/-- What looks like an end tag of a template on a line is shown by an aside, or a template ends there
with an end tag on this line. -/
theorem Flat.end_on_line (hflat : Flat xsl parts) (hread : ¬ Misread xsl parts)
    {p s : List Char} (hline : (lines (render (document xsl parts)))[k]? = some (p ++ s))
    (h : LooksEnd xsl s) :
    (∃ before, Shows (document xsl parts) (LooksEnd xsl) k before) ∨
    ∃ e ∈ extents xsl 0 parts, e.stop = k ∧ '\n' ∉ e.blanks := by
  obtain ⟨blanks, r, rfl, hblanks⟩ := h
  obtain ⟨ts, t, us, hdoc, htoken⟩ := token_of_end hflat.sound
    (fun d hd => hflat.not_mem_templateName hd.1 hd.2.1) hblanks hline
  have hmem : t ∈ document xsl parts := by rw [hdoc]; simp
  rcases htoken with ⟨kind, inside, a, y, rfl, hchars, hcount⟩ | ⟨x, spaces, rfl, hx, hsame, hcount⟩
  · exact Or.inl ⟨a, _, kind, inside, _, mem_numbered.mpr ⟨ts, us, hdoc, rfl⟩, hchars, hcount,
      blanks, y, rfl, hblanks⟩
  · obtain rfl := eq_nil_of_not_misread hread hmem rfl hx
    obtain rfl := hsame rfl
    rw [List.append_nil] at hdoc
    obtain ⟨ps, q, qs, hparts, ⟨_, -, ht, -⟩ | ⟨tag, content, _, rfl, ⟨ht, -⟩ | ⟨ht, rfl⟩⟩⟩ :=
      hflat.tag_cases hdoc rfl
    · cases ht
    · cases ht
    · obtain rfl := (Token.closes.inj ht).2
      obtain ⟨_, -, hfeed, -⟩ := textBefore_append_line hline
      refine Or.inr ⟨⟨tag, spaces, (render (document xsl ps)).count '\n', k⟩,
        mem_extents.mpr ⟨ps, _, qs, hparts, ?_⟩, rfl, fun hmem => hfeed (by simp [hmem])⟩
      rw [Part.extent?, Nat.zero_add, ← count_render_append, hcount]

/-- Whether a tag keeps to its line does not depend on whether it closes its element. -/
theorem TemplateTag.feed_not_mem_inside {tag : TemplateTag} (h : '\n' ∉ tag.inside false)
    (closed : Bool) : '\n' ∉ tag.inside closed := by
  cases closed with
  | false => exact h
  | true =>
    have hinside : tag.inside true = tag.inside false ++ ['/'] := by
      simp [TemplateTag.inside, TemplateTag.rest]
    simp [hinside, h]

/-- The start tag of a template stands, as it is, behind the blanks with which its line begins. -/
theorem Flat.line_of_tag (hflat : Flat xsl parts) (closed : Bool) {ps qs : List Part} {p : Part}
    {tag : TemplateTag} {t : Token} {us : List Token} (hparts : parts = ps ++ p :: qs)
    (htag : p.tag? = some tag) (htokens : p.tokens xsl = t :: us)
    (hchars : t.chars = '<' :: (templateName xsl ++ (tag.inside closed ++ ['>'])))
    (hline : (lines (render (document xsl parts)))[(render (document xsl ps)).count '\n']? =
      some line) :
    ∃ indent q, (∀ c ∈ indent, isBlank c = true) ∧
      line = indent ++ '<' :: (templateName xsl ++ (tag.inside closed ++ '>' :: q)) := by
  obtain ⟨hfeed, hbegins⟩ := hflat.begins ps p qs hparts tag htag
  have hname : '\n' ∉ templateName xsl := hflat.not_mem_templateName (by decide) (by decide)
  have hdoc : document xsl parts = document xsl ps ++ t :: (us ++ document xsl qs) := by
    rw [hparts, document_append, document_cons, htokens, List.cons_append]
  rw [hdoc] at hline
  obtain ⟨indent, q, rfl, hindent⟩ := token_behind hline
    (by simp [hchars, hname, tag.feed_not_mem_inside hfeed closed])
    ⟨'<' :: (templateName xsl ++ tag.inside closed), by simp [hchars]⟩
  obtain ⟨_, -, hnot, -⟩ := textBefore_append_line hline
  rw [hindent] at hbegins
  refine ⟨indent, q, blank_of_beginsLine hbegins fun hmem => hnot (by simp [hmem]), ?_⟩
  rw [hchars]
  simp

/-! ## Readings -/

/-- What the lines of a stylesheet must show for its templates to be found. -/
structure Readings (xsl : List Char) (ls : List (List Char)) (es : List Extent) : Prop where
  /-- The extents lie one behind the other. -/
  ordered : es.Pairwise fun d e => d.stop < e.start
  /-- No extent ends before it begins. -/
  start_le : ∀ e ∈ es, e.start ≤ e.stop
  /-- The extents lie on the lines. -/
  stop_lt : ∀ e ∈ es, e.stop < ls.length
  /-- A pattern is read only where a template begins. -/
  opened : ∀ k line pattern, ls[k]? = some line → openedPattern? xsl line = some pattern →
    ∃ e ∈ es, e.start = k
  /-- The pattern that is read where a template begins is the one that it has. -/
  pattern : ∀ e ∈ es, ∀ line, ls[e.start]? = some line →
    openedPattern? xsl line = e.tag.pattern?
  /-- Each start tag is shown. -/
  starts : ∀ e ∈ es, ∀ line, ls[e.start]? = some line → showsStart xsl line = true
  /-- Each end tag that keeps to its line is shown. -/
  ends : ∀ e ∈ es, '\n' ∉ e.blanks → ∀ line, ls[e.stop]? = some line → showsEnd xsl line = true
  /-- Behind the first line of a template with a pattern no other start tag is shown up to its end
  tag. -/
  noStart : ∀ e ∈ es, e.tag.pattern?.isSome = true → ∀ k line, ls[k]? = some line → e.start < k →
    k ≤ e.stop → showsStart xsl line = false
  /-- Behind the first line of a template with a pattern no other end tag is shown before the
  search comes to an end. -/
  noEnd : ∀ e ∈ es, e.tag.pattern?.isSome = true → ∀ k line, ls[k]? = some line → e.start < k →
    (e.isLost = true ∨ k ≤ e.stop) → showsEnd xsl line = true →
    ∃ d ∈ es, d.stop = k ∧ '\n' ∉ d.blanks

/-- Where a template of a flat stylesheet begins, the start tag is shown with its pattern. -/
theorem Flat.reads_start (hflat : Flat xsl parts) (hread : ¬ Misread xsl parts) {e : Extent}
    (he : e ∈ extents xsl 0 parts) (hline : (lines (render (document xsl parts)))[e.start]? = some line) :
    openedPattern? xsl line = e.tag.pattern? ∧ showsStart xsl line = true := by
  have hclear : ¬ Obscured e.tag false := fun h => hread (.tag he h)
  obtain ⟨ps, p, qs, hparts, hp⟩ := mem_extents.mp he
  obtain ⟨content, rfl, hstart, -⟩ := Part.extent?_eq_some.mp hp
  rw [Nat.zero_add] at hstart
  rw [hstart] at hline
  obtain ⟨indent, q, hindent, rfl⟩ := hflat.line_of_tag false hparts rfl rfl rfl hline
  refine ⟨openedPattern?_tag xsl hclear hindent q, showsStart_tag ?_ indent q⟩
  by_contra hslash
  exact hclear (.slashed rfl (Bool.not_eq_false _ ▸ hslash))

/-- A line of a flat stylesheet on which a pattern is read is one on which a template begins. -/
theorem Flat.reads_opened (hflat : Flat xsl parts) (hread : ¬ Misread xsl parts)
    {pattern : List Char} (hline : (lines (render (document xsl parts)))[k]? = some line)
    (h : openedPattern? xsl line = some pattern) : ∃ e ∈ extents xsl 0 parts, e.start = k := by
  have hk := (List.getElem?_eq_some_iff.mp hline).1
  obtain ⟨indent, s, rfl, hindent, hlooks⟩ := looksStart_of_openedPattern? h
  rcases hflat.start_on_line hread hline hlooks with ⟨ts, before, hbefore, hshows⟩ |
    ⟨ps, p, qs, hparts, hp, rfl⟩
  · have hbegins := beginsLine_textBefore hk hindent
    rw [hbefore] at hbegins
    exact absurd (.begins (beginsLine_of_append hbegins) hshows) hread
  · cases p with
    | token t => exact absurd hp (by simp [Part.tag?])
    | template tag content blanks =>
      exact ⟨_, mem_extents.mpr ⟨ps, _, qs, hparts, rfl⟩, Nat.zero_add _⟩
    | empty tag =>
      -- A template without content shows no pattern.
      obtain ⟨indent', q, hindent', hline'⟩ := hflat.line_of_tag true hparts rfl rfl
        (by simp [Token.chars, TemplateTag.inside, TemplateTag.rest]) hline
      have hclear : ¬ Obscured tag true := fun h => hread (.empty (hparts ▸ by simp) h)
      have hnone := openedPattern?_tag xsl hclear hindent' q
      rw [hline'] at h
      exact absurd (hnone.symm.trans h) (by simp)

/-- Where a template of a flat stylesheet ends, the end tag is shown if it keeps to its line. -/
theorem Flat.reads_end (hflat : Flat xsl parts) {e : Extent} (he : e ∈ extents xsl 0 parts)
    (hfeed : '\n' ∉ e.blanks)
    (hline : (lines (render (document xsl parts)))[e.stop]? = some line) :
    showsEnd xsl line = true := by
  obtain ⟨ps, p, qs, hparts, hp⟩ := mem_extents.mp he
  obtain ⟨content, rfl, -, hstop⟩ := Part.extent?_eq_some.mp hp
  have hname : '\n' ∉ templateName xsl := hflat.not_mem_templateName (by decide) (by decide)
  have hdoc : document xsl parts = (document xsl ps ++ startTag xsl e.tag :: content) ++
      .closes (templateName xsl) e.blanks :: document xsl qs := by
    rw [hparts, document_append, document_cons, Part.tokens]
    simp
  have hsound : (Token.closes (templateName xsl) e.blanks).Sound :=
    hflat.sound _ (hdoc ▸ List.mem_append_right _ List.mem_cons_self)
  rw [Nat.zero_add, ← count_render_append] at hstop
  rw [hdoc, hstop] at hline
  obtain ⟨p, q, rfl, -⟩ := token_behind hline (by simp [Token.chars, hname, hfeed])
    ⟨'<' :: '/' :: (templateName xsl ++ e.blanks), by simp [Token.chars]⟩
  refine showsEnd_iff.mpr ⟨p, _, rfl, e.blanks, q, by simp [Token.chars], fun c hc => ?_⟩
  exact isBlank_of_isSpace (List.all_eq_true.mp hsound.2 c hc)

/-- The lines of a flat stylesheet show its templates, unless they are misread. -/
theorem Flat.readings (hflat : Flat xsl parts) (hread : ¬ Misread xsl parts) :
    Readings xsl (lines (render (document xsl parts))) (extents xsl 0 parts) where
  ordered := hflat.pairwise_extents
  start_le := fun e he => start_le_stop he
  stop_lt := by
    intro e he
    obtain ⟨ps, p, qs, rfl, hp⟩ := mem_extents.mp he
    obtain ⟨content, rfl, -, hstop⟩ := Part.extent?_eq_some.mp hp
    rw [length_lines_eq_count, hstop, document_append, document_cons, count_render_append,
      count_render_append, Part.tokens, ← List.cons_append, count_render_append]
    omega
  opened := fun k line pattern hline h => hflat.reads_opened hread hline h
  pattern := fun e he line hline => (hflat.reads_start hread he hline).1
  starts := fun e he line hline => (hflat.reads_start hread he hline).2
  ends := fun e he hfeed line hline => hflat.reads_end he hfeed hline
  noStart := by
    intro e he hpattern k line hline hstart hstop
    rw [← Bool.not_eq_true]
    intro hshows
    obtain ⟨p, s, rfl, hlooks⟩ := looksStart_of_showsStart hshows
    rcases hflat.start_on_line hread hline hlooks with ⟨-, before, -, hshown⟩ |
      ⟨ps, q, qs, hparts, hq, rfl⟩
    · exact hread (.inner he hpattern hstart hstop hshown)
    · have houtside := hflat.start_outside he hparts hq
      omega
  noEnd := by
    intro e he hpattern k line hline hstart hstop hshows
    obtain ⟨p, s, rfl, hlooks⟩ := showsEnd_iff.mp hshows
    rcases hflat.end_on_line hread hline hlooks with ⟨before, hshown⟩ | hends
    · exact absurd (.ends he hpattern hstart hstop hshown) hread
    · exact hends

end

end StylesheetTrace.Stylesheet
