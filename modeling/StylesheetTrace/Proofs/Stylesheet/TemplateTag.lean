import StylesheetTrace.Proofs.Report.StartAttribute
import StylesheetTrace.Proofs.Stylesheet.Scan
import StylesheetTrace.Stylesheet.Template

/-!
# Start tags of templates

A template has a match pattern when an attribute of its start tag gives one, between double quotes.
The search for patterns does not know of attributes: it takes the last assignment that begins before
the first `>`, and takes this `>`, or the first one behind the pattern, for the end of the tag. The
start tags that it reads otherwise than they are meant are named (`Obscured`), and all others are
read as they are (`openedPattern?_tag`).
-/

namespace StylesheetTrace.Stylesheet

open StylesheetTrace.Text StylesheetTrace.Markup
open StylesheetTrace.Report (StartAttribute visible)

/-! ## Tags -/

/-- What stands behind the name of a template in its start tag. -/
structure TemplateTag where
  /-- The attributes in their order. -/
  attributes : List StartAttribute
  /-- The blanks behind the attributes. -/
  trailing : List Char
  /-- Behind the attributes stand only blanks. -/
  blank : ∀ c ∈ trailing, isBlank c = true

/-- The attribute gives a match pattern, between double quotes. -/
def givesPattern (a : StartAttribute) : Bool :=
  decide (a.name = "match".toList ∧ a.quote = .double)

namespace TemplateTag

/-- The match pattern that the attributes give. -/
def pattern? (t : TemplateTag) : Option (List Char) :=
  (t.attributes.find? givesPattern).map StartAttribute.value

/-- The characters of the attributes `as` and of what follows them in the tag, up to its `>`. -/
def rest (t : TemplateTag) (as : List StartAttribute) (closed : Bool) : List Char :=
  as.flatMap StartAttribute.chars ++ (t.trailing ++ if closed then ['/'] else [])

/-- The characters of the tag between its name and its `>`. -/
def inside (t : TemplateTag) (closed : Bool) : List Char :=
  t.rest t.attributes closed

/-- The first attribute of the tag that gives a pattern is `a`. -/
def Gives (t : TemplateTag) (front : List StartAttribute) (a : StartAttribute)
    (behind : List StartAttribute) : Prop :=
  t.attributes = front ++ a :: behind ∧ givesPattern a = true ∧ ∀ b ∈ front, givesPattern b = false

end TemplateTag

/-- An assignment of a pattern begins in the text, behind a character that is in no word. -/
def ShowsPattern (s : List Char) : Prop :=
  ∃ c, isWord c = false ∧ c :: "match=\"".toList <:+: s

/-- How a start tag can be read otherwise than it is meant. Blanks stand around the equals sign of
its pattern; a value before the pattern holds `>`; what seems to be an assignment of a pattern
begins behind the one of the tag, or in a tag that has none; a value behind the pattern holds a `>`
that makes the tag seem to close its element or not to; or the first `>` in the values of a tag that
does not close its element follows a slash. -/
inductive Obscured (t : TemplateTag) (closed : Bool) : Prop where
  | spaced {front behind : List StartAttribute} {a : StartAttribute} (ht : t.Gives front a behind)
      (h : a.left ++ a.right ≠ [])
  | hidden {front behind : List StartAttribute} {a b : StartAttribute} (ht : t.Gives front a behind)
      (hb : b ∈ front) (h : '>' ∈ b.value)
  | repeated {front behind : List StartAttribute} {a : StartAttribute} (ht : t.Gives front a behind)
      (h : ShowsPattern ('"' :: visible (a.value ++ '"' :: t.rest behind closed)))
  | feigned (ht : t.pattern? = none) (h : ShowsPattern (visible (t.inside closed)))
  | mistaken {front behind : List StartAttribute} {a : StartAttribute} (ht : t.Gives front a behind)
      (h : endsWithSlash (visible (t.rest behind closed)) ≠ closed)
  | slashed (hclosed : closed = false) (h : endsWithSlash (visible (t.inside closed)) = true)

/-! ## Readings -/

/-- A blank is in no word. -/
theorem isWord_of_isBlank {c : Char} (h : isBlank c = true) : isWord c = false := by
  rw [← Bool.not_eq_true]
  intro hword
  have hname : IsNameChar c := Or.inr (Or.inl (by simp [isLiteralChar, hword]))
  exact Bool.false_ne_true (hname.not_blank.symm.trans h)

/-- A text before a `>` is cut off at the first `>`. -/
theorem append_gt_eq (x q : List Char) : ∃ q', x ++ '>' :: q = visible x ++ '>' :: q' := by
  by_cases h : '>' ∈ x
  · obtain ⟨u, v, rfl, hu⟩ := List.eq_append_cons_of_mem h
    refine ⟨v ++ '>' :: q, ?_⟩
    rw [Report.visible_append hu]
    simp [visible]
  · exact ⟨q, by rw [Report.visible_eq_self h]⟩

/-- The visible part of a text holds no `>`. -/
theorem gt_not_mem_visible (x : List Char) : '>' ∉ visible x :=
  not_mem_takeWhile (by decide) x

/-- The inside of a tag is the visible part of what stands before a `>`. -/
theorem tagInside?_visible (x q : List Char) :
    ∃ q', tagInside? (x ++ '>' :: q) = some (visible x, q') := by
  obtain ⟨q', hq⟩ := append_gt_eq x q
  exact ⟨q', by rw [hq, tagInside?_append (gt_not_mem_visible x)]⟩

/-- What shows a pattern shows it in more text too. -/
theorem ShowsPattern.mono {s t : List Char} (hst : s <:+: t) (h : ShowsPattern s) :
    ShowsPattern t := by
  obtain ⟨c, hc, hs⟩ := h
  exact ⟨c, hc, hs.trans hst⟩

/-- A pattern found before stays the last one where none is shown up to the next `>`. -/
theorem lastPattern?_eq_self {t : List Char} (ht : '>' ∉ t) {d : Char}
    (h : ¬ ShowsPattern (d :: t)) (q : List Char) (found : Option (List Char × Bool)) :
    lastPattern? (isWord d) (t ++ '>' :: q) found = found := by
  induction t generalizing d with
  | nil => rfl
  | cons c t ih =>
    rw [List.mem_cons, not_or] at ht
    have hnext : ¬ ShowsPattern (c :: t) := fun hshows =>
      h (hshows.mono (List.suffix_cons d _).isInfix)
    have hhere : (if isWord d then found else
        (patternAt? (c :: (t ++ '>' :: q))).or found) = found := by
      cases hd : isWord d with
      | true => rfl
      | false =>
        have hafter : after? "match=\"".toList (c :: (t ++ '>' :: q)) = none := by
          rw [← List.cons_append, after?_append_cons (by decide), Option.map_eq_none_iff,
            Option.eq_none_iff_forall_not_mem]
          intro rest hrest
          refine h ⟨d, hd, ⟨[], rest, ?_⟩⟩
          rw [after?_eq_some.mp hrest]
          simp
        rw [patternAt?, hafter]
        rfl
    rw [List.cons_append, lastPattern?, if_neg (by simpa using Ne.symm ht.1), hhere,
      ih ht.2 hnext]

/-- The search goes on behind a text without `>`, with some pattern found there or before. -/
theorem lastPattern?_append {u : List Char} (hu : '>' ∉ u) {c : Char} (hc : c ≠ '>') (w : Bool)
    (s : List Char) (found : Option (List Char × Bool)) :
    ∃ found', lastPattern? w (u ++ c :: s) found = lastPattern? (isWord c) s found' := by
  induction u generalizing w found with
  | nil =>
    rw [List.nil_append, lastPattern?, if_neg (by simpa using hc)]
    exact ⟨_, rfl⟩
  | cons d u ih =>
    rw [List.mem_cons, not_or] at hu
    rw [List.cons_append, lastPattern?, if_neg (by simpa using Ne.symm hu.1)]
    exact ih hu.2 _ _

/-- An assignment of a pattern is read where it stands behind a character that is in no word. -/
theorem lastPattern?_assignment (s : List Char) (found : Option (List Char × Bool)) :
    lastPattern? false ("match=\"".toList ++ s) found =
      lastPattern? (isWord '"') s ((patternAt? ("match=\"".toList ++ s)).or found) := by
  have hletters : isWord 'm' = true ∧ isWord 'a' = true ∧ isWord 't' = true ∧ isWord 'c' = true ∧
      isWord 'h' = true ∧ isWord '=' = false := by decide
  obtain ⟨hm, ha, ht, hc, hh, heq⟩ := hletters
  have hquote : patternAt? ('"' :: s) = none := rfl
  change lastPattern? false ('m' :: 'a' :: 't' :: 'c' :: 'h' :: '=' :: '"' :: s) found =
    lastPattern? (isWord '"') s
      ((patternAt? ('m' :: 'a' :: 't' :: 'c' :: 'h' :: '=' :: '"' :: s)).or found)
  simp [lastPattern?, hm, ha, ht, hc, hh, heq, hquote]

/-- A pattern is read up to its closing quote, and the tag up to the first `>` behind it. -/
theorem patternAt?_assignment {value : List Char} (hvalue : '"' ∉ value) (x q : List Char) :
    patternAt? ("match=\"".toList ++ (value ++ '"' :: (x ++ '>' :: q))) =
      some (value, endsWithSlash (visible x)) := by
  have hcut : cut? ['"'] (value ++ '"' :: (x ++ '>' :: q)) = some (value, x ++ '>' :: q) :=
    cut?_append (v := []) List.not_mem_nil (by rwa [List.nil_append, List.singleton_infix_iff]) _
  obtain ⟨q', hinside⟩ := tagInside?_visible x q
  rw [patternAt?, after?_append]
  simp only [Option.bind_eq_bind, Option.bind_some, hcut, hinside]

/-! ## Reading a tag -/

section

variable {t : TemplateTag} {closed : Bool}

/-- What stands behind the name of a template ends the name as a word. -/
theorem TemplateTag.endsWord_inside (t : TemplateTag) (closed : Bool) (q : List Char) :
    endsWord (t.inside closed ++ '>' :: q) = true := by
  have hblank : ∀ c ∈ (t.attributes.flatMap StartAttribute.chars ++ t.trailing).head?,
      isBlank c = true := Report.isBlank_head_startAttributes t.blank
  have hinside : t.inside closed = (t.attributes.flatMap StartAttribute.chars ++ t.trailing) ++
      if closed then ['/'] else [] := (List.append_assoc _ _ _).symm
  rw [hinside]
  cases hchars : t.attributes.flatMap StartAttribute.chars ++ t.trailing with
  | nil => cases closed <;> rfl
  | cons c s =>
    rw [hchars] at hblank
    rw [List.cons_append, List.cons_append, endsWord, isWord_of_isBlank (hblank c rfl)]
    rfl

/-- The attribute with the pattern, as it stands in the tag. -/
theorem TemplateTag.Gives.inside_eq {front behind : List StartAttribute} {a : StartAttribute}
    (h : t.Gives front a behind) (hspaced : a.left ++ a.right = []) :
    ∃ u c, isBlank c = true ∧ u ++ [c] = front.flatMap StartAttribute.chars ++ a.before ∧
      t.inside closed = u ++ c :: ("match=\"".toList ++ (a.value ++ '"' :: t.rest behind closed)) := by
  obtain ⟨hattributes, ha, -⟩ := h
  obtain ⟨hname, hquote⟩ := of_decide_eq_true ha
  obtain ⟨hleft, hright⟩ := List.append_eq_nil_iff.mp hspaced
  obtain ⟨bs, c, hbefore⟩ := a.exists_before
  refine ⟨front.flatMap StartAttribute.chars ++ bs, c,
    a.isBlank_of_mem_before (hbefore ▸ by simp), by rw [hbefore, List.append_assoc], ?_⟩
  have hassign : "match=\"".toList = "match".toList ++ ['=', '"'] := rfl
  rw [TemplateTag.inside, TemplateTag.rest, TemplateTag.rest, hattributes, List.flatMap_append,
    List.flatMap_cons, StartAttribute.chars, StartAttribute.front, hname, hquote, hleft, hright,
    hbefore, hassign]
  simp [Report.Quote.char]

/-- In a tag that shows no pattern none is found. -/
theorem lastPattern?_of_not_shows (h : ¬ ShowsPattern (visible (t.inside closed))) (q : List Char) :
    lastPattern? true (t.inside closed ++ '>' :: q) none = none := by
  -- The name of the tag, which stands before, ends with the last letter of a word.
  have hshows : ¬ ShowsPattern ('e' :: visible (t.inside closed)) := by
    rintro ⟨c, hc, hinfix⟩
    rcases List.infix_cons_iff.mp hinfix with hbegins | hlater
    · obtain rfl := (List.cons_prefix_cons.mp hbegins).1
      exact absurd hc (by decide)
    · exact h ⟨c, hc, hlater⟩
  have hword : isWord 'e' = true := by decide
  obtain ⟨q', hq⟩ := append_gt_eq (t.inside closed) q
  have hnone := lastPattern?_eq_self (gt_not_mem_visible _) hshows q' none
  rw [hword] at hnone
  rw [hq, hnone]

/-- The last pattern that is found in a tag that is not obscured and gives one is this pattern. -/
theorem lastPattern?_of_gives (h : ¬ Obscured t closed) {front behind : List StartAttribute}
    {a : StartAttribute} (ht : t.Gives front a behind) (q : List Char) :
    lastPattern? true (t.inside closed ++ '>' :: q) none = some (a.value, closed) := by
  obtain ⟨u, c, hblank, hu, hinside⟩ := @TemplateTag.Gives.inside_eq t closed front behind a ht
    (by by_contra hspaced; exact h (.spaced ht hspaced))
  have hgt : '>' ∉ u := by
    intro hmem
    have hmem : '>' ∈ front.flatMap StartAttribute.chars ++ a.before :=
      hu ▸ List.mem_append_left [c] hmem
    rcases List.mem_append.mp hmem with hmem | hmem
    · obtain ⟨b, hb, hmem⟩ := List.mem_flatMap.mp hmem
      exact b.not_mem_chars (Or.inr rfl) (fun hvalue => h (.hidden ht hb hvalue)) hmem
    · exact absurd (a.isBlank_of_mem_before hmem) (by decide)
  have hc : c ≠ '>' := by
    rintro rfl
    exact absurd hblank (by decide)
  obtain ⟨found, hfound⟩ := lastPattern?_append hgt hc true
    ("match=\"".toList ++ (a.value ++ '"' :: (t.rest behind closed ++ '>' :: q))) none
  have hquote : '"' ∉ a.value := by
    have hvalue := a.value_ok.2
    rwa [(of_decide_eq_true ht.2.1).2] at hvalue
  have hread := patternAt?_assignment hquote (t.rest behind closed) q
  -- Behind the quote that opens the value no further pattern is shown.
  have hlast : ∀ found, lastPattern? (isWord '"')
      (a.value ++ '"' :: (t.rest behind closed ++ '>' :: q)) found = found := by
    intro found
    obtain ⟨q', hq⟩ := append_gt_eq (a.value ++ '"' :: t.rest behind closed) q
    rw [List.append_assoc, List.cons_append] at hq
    rw [hq]
    exact lastPattern?_eq_self (gt_not_mem_visible _) (fun hshows => h (.repeated ht hshows)) q' found
  have hslash : endsWithSlash (visible (t.rest behind closed)) = closed := by
    by_contra hmistaken
    exact h (.mistaken ht hmistaken)
  have htext : t.inside closed ++ '>' :: q = u ++ c :: ("match=\"".toList ++
      (a.value ++ '"' :: (t.rest behind closed ++ '>' :: q))) := by
    rw [hinside]
    simp
  rw [htext, hfound, isWord_of_isBlank hblank, lastPattern?_assignment, hread, hlast, hslash]
  rfl

/-- The last pattern that is found in a tag that is not obscured is the one that it gives. -/
theorem lastPattern?_inside (h : ¬ Obscured t closed) (q : List Char) :
    (lastPattern? true (t.inside closed ++ '>' :: q) none).bind
        (fun found => if found.2 then none else some found.1) =
      if closed then none else t.pattern? := by
  cases hpattern : t.pattern? with
  | none =>
    rw [lastPattern?_of_not_shows (fun hshows => h (.feigned hpattern hshows)) q]
    cases closed <;> rfl
  | some value =>
    obtain ⟨a, ha, rfl⟩ := Option.map_eq_some_iff.mp hpattern
    obtain ⟨hgives, front, behind, hattributes, hfront⟩ := List.find?_eq_some_iff_append.mp ha
    have ht : t.Gives front a behind := ⟨hattributes, hgives, fun b hb => by simpa using hfront b hb⟩
    rw [lastPattern?_of_gives h ht q]
    rfl

/-- A start tag that is not obscured is read as it is, behind blanks and before any text. -/
theorem openedPattern?_tag (xsl : List Char) (h : ¬ Obscured t closed) {indent : List Char}
    (hindent : ∀ c ∈ indent, isBlank c = true) (q : List Char) :
    openedPattern? xsl (indent ++ '<' :: (xsl ++ ":template".toList ++
        (t.inside closed ++ '>' :: q))) =
      if closed then none else t.pattern? := by
  have hhead : ∀ s, ∀ c ∈ ('<' :: s).head?, isBlank c = false := head?_cons_eq_false (by decide)
  rw [openedPattern?, dropWhile_append_of_head (hhead _), List.dropWhile_eq_nil_iff.mpr hindent,
    List.nil_append, List.cons_append, after?_cons_cons, after?_append, Option.bind_some,
    if_pos (t.endsWord_inside closed q)]
  exact lastPattern?_inside h q

end

end StylesheetTrace.Stylesheet
