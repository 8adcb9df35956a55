import Mathlib.Data.List.Pairwise
import StylesheetTrace.Proofs.Stylesheet.TemplateLine

/-!
# Templates that are reported

The search follows the lines with a counter for the templates that are open. From one template of a
flat stylesheet to the next it opens each one that has a pattern on the line of its start tag and
completes it on that of its end tag, up to the first one whose end tag it does not come to: this one
stays open for good, and neither it nor any later one is reported (`templates_flat`).
-/

namespace StylesheetTrace.Stylesheet

open StylesheetTrace.Text StylesheetTrace.Markup
open StylesheetTrace.Report (Quote StartAttribute visible)

/-! ## What is reported -/

/-- The pattern of a template and the lines on which it begins and ends. -/
def Template.place (t : Template) : String × Nat × Nat :=
  (t.pattern, t.line, t.endLine)

/-- The place of a template that has a pattern, with its lines counted from 1. -/
def Extent.place? (e : Extent) : Option (String × Nat × Nat) :=
  e.tag.pattern?.map fun pattern => (String.ofList pattern, e.start + 1, e.stop + 1)

/-- The places of the templates that are found: those with a pattern, up to the first one whose end
tag the search does not come to. -/
def reported (es : List Extent) : List (String × Nat × Nat) :=
  (es.takeWhile fun e => !e.isLost).filterMap Extent.place?

/-- A template whose end tag is found is reported where it has a pattern. -/
theorem reported_cons {e : Extent} (h : e.isLost = false) (es : List Extent) :
    reported (e :: es) = e.place?.toList ++ reported es := by
  rw [reported, List.takeWhile_cons_of_pos (by simp [h]), List.filterMap_cons]
  cases e.place? <;> rfl

/-- From a template whose end tag is not found on nothing is reported. -/
theorem reported_cons_of_isLost {e : Extent} (h : e.isLost = true) (es : List Extent) :
    reported (e :: es) = [] := by
  rw [reported, List.takeWhile_cons_of_neg (by simp [h]), List.filterMap_nil]

/-! ## Runs of lines -/

section

variable {xsl : List Char} {ls : List (List Char)} {es front back : List Extent} {d e : Extent}
  {done : List Template} {n : Nat} {line : List Char}

/-- A template stays open on lines that show no tags of templates. -/
theorem templatesBefore_of_open {t : OpenTemplate} {m : Nat}
    (hstate : templatesBefore xsl ls n = (some t, done)) (hnm : n ≤ m) (hm : m ≤ ls.length)
    (hquiet : ∀ k line, n ≤ k → k < m → ls[k]? = some line →
      showsStart xsl line = false ∧ showsEnd xsl line = false) :
    ∃ body, templatesBefore xsl ls m = (some { t with body }, done) := by
  induction m, hnm using Nat.le_induction with
  | base => exact ⟨t.body, hstate⟩
  | succ m hnm ih =>
    obtain ⟨body, ih⟩ := ih (by omega) fun k line hk hkm => hquiet k line hk (by omega)
    have hline : ls[m]? = some ls[m] := List.getElem?_eq_getElem hm
    obtain ⟨hstart, hend⟩ := hquiet m _ hnm (Nat.lt_succ_self m) hline
    refine ⟨ls[m] :: body, ?_⟩
    rw [templatesBefore_succ hline, ih, templateStep]
    rcases continueTemplate_cases xsl { t with body } (m + 1) ls[m] with ⟨h, -, -⟩ | ⟨-, hmore⟩
    · exact absurd (hend.symm.trans h) (by decide)
    · simp [hmore, hstart, hend]

/-- Nothing is opened on lines on which no template begins. -/
theorem Readings.templatesBefore_of_closed (hr : Readings xsl ls es) {m : Nat}
    (hstate : templatesBefore xsl ls n = (none, done)) (hnm : n ≤ m) (hm : m ≤ ls.length)
    (houtside : ∀ d ∈ es, d.start < n ∨ m ≤ d.start) :
    templatesBefore xsl ls m = (none, done) := by
  induction m, hnm using Nat.le_induction with
  | base => exact hstate
  | succ m hnm ih =>
    have hline : ls[m]? = some ls[m] := List.getElem?_eq_getElem hm
    have hnone : openedPattern? xsl ls[m] = none := by
      rw [Option.eq_none_iff_forall_not_mem]
      intro pattern hpattern
      obtain ⟨d, hd, hstart⟩ := hr.opened m _ pattern hline hpattern
      have hd := houtside d hd
      omega
    have houtside' : ∀ d ∈ es, d.start < n ∨ m ≤ d.start := fun d hd =>
      (houtside d hd).imp_right Nat.le_of_succ_le
    rw [templatesBefore_succ hline, ih (by omega) houtside', templateStep]
    simp [hnone]

/-! ## Templates that are found -/

/-- Where a template begins and no other one is open, it is opened if it has a pattern. -/
theorem Readings.templatesBefore_start (hr : Readings xsl ls es) (he : e ∈ es)
    (hstate : templatesBefore xsl ls e.start = (none, done)) :
    templatesBefore xsl ls (e.start + 1) =
      (e.tag.pattern?.map fun pattern => ⟨pattern, e.start + 1, 1, []⟩, done) := by
  have hle := hr.start_le e he
  have hlt := hr.stop_lt e he
  have hline : ls[e.start]? = some ls[e.start] := List.getElem?_eq_getElem (by omega)
  rw [templatesBefore_succ hline, hstate, templateStep, hr.pattern e he _ hline]

/-- No template ends where another one goes on. -/
theorem Readings.stop_outside (hr : Readings xsl ls es) (hd : d ∈ es) (he : e ∈ es) :
    d.stop < e.start ∨ e.stop ≤ d.stop := by
  by_cases hsame : d = e
  · exact Or.inr (Nat.le_of_eq (congrArg Extent.stop hsame.symm))
  · have hsymm : Std.Symm fun d e : Extent => d.stop < e.start ∨ e.stop < d.start :=
      ⟨fun _ _ h => h.symm⟩
    have hpairs : es.Pairwise fun d e => d.stop < e.start ∨ e.stop < d.start :=
      hr.ordered.imp Or.inl
    have hle := hr.start_le d hd
    exact (hpairs.forall hd he hsame).imp_right fun h => by omega

/-- On the lines of a template with a pattern, behind the first one, no other template ends. -/
theorem Readings.showsEnd_eq_false (hr : Readings xsl ls es) (he : e ∈ es)
    (hpattern : e.tag.pattern?.isSome = true) (hline : ls[n]? = some line) (hstart : e.start < n)
    (hstop : n < e.stop) : showsEnd xsl line = false := by
  rw [← Bool.not_eq_true]
  intro hshows
  obtain ⟨d, hd, rfl, -⟩ := hr.noEnd e he hpattern n line hline hstart (Or.inr (by omega)) hshows
  have houtside := hr.stop_outside hd he
  omega

/-- A template with a pattern that is not lost is completed on the line of its end tag. -/
theorem Readings.complete (hr : Readings xsl ls es) (he : e ∈ es) {pattern : List Char}
    (hpattern : e.tag.pattern? = some pattern) (hlost : e.isLost = false)
    (hstate : templatesBefore xsl ls e.start = (none, done)) :
    ∃ t, templatesBefore xsl ls (e.stop + 1) = (none, t :: done) ∧ e.place? = some t.place := by
  have hsome : e.tag.pattern?.isSome = true := by rw [hpattern]; rfl
  rw [Extent.isLost, hsome, Bool.true_and, decide_eq_false_iff_not, not_or] at hlost
  have hle := hr.start_le e he
  have hlt := hr.stop_lt e he
  have hopened := hr.templatesBefore_start he hstate
  rw [hpattern, Option.map_some] at hopened
  obtain ⟨body, hbody⟩ := templatesBefore_of_open hopened (m := e.stop) (by omega) (by omega)
    fun k line hk hkm hline => ⟨hr.noStart e he hsome k line hline (by omega) (by omega),
      hr.showsEnd_eq_false he hsome hline (by omega) hkm⟩
  have hline : ls[e.stop]? = some ls[e.stop] := List.getElem?_eq_getElem hlt
  have hstart := hr.noStart e he hsome e.stop _ hline (by omega) (Nat.le_refl _)
  have hend := hr.ends e he hlost.2 _ hline
  refine ⟨⟨String.ofList pattern, e.start + 1, e.stop + 1, producedElements xsl body.reverse⟩, ?_,
    by rw [Extent.place?, hpattern]; rfl⟩
  rw [templatesBefore_succ hline, hbody, templateStep]
  rcases continueTemplate_cases xsl ⟨pattern, e.start + 1, 1, body⟩ (e.stop + 1) ls[e.stop] with
    ⟨-, -, hdone⟩ | ⟨hmore, -⟩
  · simp only [hdone]
  · exact absurd (by simp [hstart]) (hmore hend)

/-! ## Templates that are lost -/

/-- The end tags shown behind the first line of a template whose own is not found are those of later
templates. -/
theorem Readings.end_behind_lost (hr : Readings xsl ls (front ++ e :: back))
    (hlost : e.isLost = true) (hline : ls[n]? = some line) (hn : e.start < n)
    (h : showsEnd xsl line = true) : ∃ d ∈ back, d.stop = n := by
  have he : e ∈ front ++ e :: back := by simp
  obtain ⟨hpattern, hend⟩ := Bool.and_eq_true _ _ ▸ hlost
  obtain ⟨d, hd, hstop, hfeed⟩ := hr.noEnd e he hpattern n line hline hn (Or.inl hlost) h
  rcases List.mem_append.mp hd with hfront | hbehind
  · have hlt := (List.pairwise_append.mp hr.ordered).2.2 d hfront e List.mem_cons_self
    omega
  · rcases List.mem_cons.mp hbehind with rfl | hback
    · rcases of_decide_eq_true hend with hsame | hspans
      · omega
      · exact absurd hspans hfeed
    · exact ⟨d, hback, hstop⟩

/-- The counter before line `n` in a template that stays open: it is at least one, and at least two
while one of the later templates goes on. -/
def OpenTemplate.Counts (t : OpenTemplate) (later : List Extent) (n : Nat) : Prop :=
  1 ≤ t.depth ∧ ∀ d ∈ later, d.start < n → n ≤ d.stop → 2 ≤ t.depth

/-- On each line of a later template, the first one included, that template is counted. -/
theorem OpenTemplate.Counts.two_le {t : OpenTemplate} (ht : t.Counts back n)
    (hr : Readings xsl ls es) (hd : d ∈ back) (hmem : d ∈ es) (hline : ls[n]? = some line)
    (hstart : d.start ≤ n) (hstop : n ≤ d.stop) :
    2 ≤ t.depth + if showsStart xsl line then 1 else 0 := by
  rcases Nat.lt_or_eq_of_le hstart with hbefore | rfl
  · have hdepth := ht.2 d hd hbefore hstop
    omega
  · have hdepth := ht.1
    rw [hr.starts d hmem _ hline, if_pos rfl]
    omega

/-- A template whose end tag is not found goes on with each line, and the counter keeps its bounds: an
end tag that is shown is that of a later template, which was counted. -/
theorem Readings.counts_step (hr : Readings xsl ls (front ++ e :: back)) (hlost : e.isLost = true)
    {t : OpenTemplate} (ht : t.Counts back n) (hn : e.start < n) (hline : ls[n]? = some line) :
    ∃ u, continueTemplate xsl t (n + 1) line = .inl u ∧ u.Counts back (n + 1) := by
  have hmem : ∀ d ∈ back, d ∈ front ++ e :: back := fun d hd => by simp [hd]
  have hcounted : showsEnd xsl line = true →
      2 ≤ t.depth + if showsStart xsl line then 1 else 0 := by
    intro hend
    obtain ⟨d, hd, hstop⟩ := hr.end_behind_lost hlost hline hn hend
    have hle := hr.start_le d (hmem d hd)
    exact ht.two_le hr hd (hmem d hd) hline (by omega) (by omega)
  have hgoes : ∀ d ∈ back, d.start < n + 1 → n + 1 ≤ d.stop → showsEnd xsl line = false := by
    intro d hd hstart hstop
    rw [← Bool.not_eq_true]
    intro hend
    obtain ⟨c, hc, hcstop⟩ := hr.end_behind_lost hlost hline hn hend
    have houtside := hr.stop_outside (hmem c hc) (hmem d hd)
    omega
  rcases continueTemplate_cases xsl t (n + 1) line with ⟨hend, hdepth, -⟩ | ⟨-, hstep⟩
  · have htwo := hcounted hend
    omega
  · refine ⟨_, hstep, ?_, fun d hd hstart hstop => ?_⟩
    · have hone := ht.1
      dsimp only
      cases hend : showsEnd xsl line with
      | true =>
        have htwo := hcounted hend
        rw [if_pos rfl]
        omega
      | false =>
        rw [if_neg Bool.false_ne_true]
        omega
    · have htwo := ht.two_le hr hd (hmem d hd) hline (by omega) (by omega)
      rw [hgoes d hd hstart hstop, if_neg Bool.false_ne_true]
      exact htwo

/-- A template whose end tag is not found stays open up to the last line. -/
theorem Readings.open_behind_lost (hr : Readings xsl ls (front ++ e :: back))
    (hlost : e.isLost = true) {t : OpenTemplate} (ht : t.depth = 1)
    (hstate : templatesBefore xsl ls (e.start + 1) = (some t, done)) (hn : e.start + 1 ≤ n)
    (hlen : n ≤ ls.length) :
    ∃ u : OpenTemplate, templatesBefore xsl ls n = (some u, done) ∧ u.Counts back n := by
  induction n, hn using Nat.le_induction with
  | base =>
    refine ⟨t, hstate, Nat.le_of_eq ht.symm, fun d hd hstart hstop => ?_⟩
    -- No later template begins before the lost one has ended.
    have hlt := List.rel_of_pairwise_cons (List.pairwise_append.mp hr.ordered).2.1 hd
    have hle := hr.start_le e (by simp)
    omega
  | succ n hn ih =>
    obtain ⟨u, hu, hcounts⟩ := ih (by omega)
    have hline : ls[n]? = some ls[n] := List.getElem?_eq_getElem hlen
    obtain ⟨v, hv, hcounts⟩ := hr.counts_step hlost hcounts hn hline
    refine ⟨v, ?_, hcounts⟩
    rw [templatesBefore_succ hline, hu, templateStep]
    simp only [hv]

/-! ## Rows of templates -/

/-- From a line outside templates on, those of the templates behind it are reported that are found.
-/
theorem Readings.places_behind (hr : Readings xsl ls (front ++ back)) (hlen : n ≤ ls.length)
    (hfront : ∀ d ∈ front, d.start < n) (hback : ∀ d ∈ back, n ≤ d.start)
    (hstate : templatesBefore xsl ls n = (none, done)) :
    ((templatesBefore xsl ls ls.length).2.map Template.place) =
      (reported back).reverse ++ done.map Template.place := by
  induction back generalizing front n done with
  | nil =>
    have houtside : ∀ d ∈ front ++ [], d.start < n ∨ ls.length ≤ d.start := fun d hd =>
      Or.inl (hfront d (by simpa using hd))
    rw [hr.templatesBefore_of_closed hstate hlen (Nat.le_refl _) houtside]
    rfl
  | cons e back ih =>
    have he : e ∈ front ++ e :: back := by simp
    have hn := hback e List.mem_cons_self
    have hle := hr.start_le e he
    have hlt := hr.stop_lt e he
    have hbehind : ∀ d ∈ back, e.stop < d.start := fun d hd =>
      List.rel_of_pairwise_cons (List.pairwise_append.mp hr.ordered).2.1 hd
    have houtside : ∀ d ∈ front ++ e :: back, d.start < n ∨ e.start ≤ d.start := by
      intro d hd
      rcases List.mem_append.mp hd with hd | hd
      · exact Or.inl (hfront d hd)
      · rcases List.mem_cons.mp hd with rfl | hd
        · exact Or.inr (Nat.le_refl _)
        · have hlt := hbehind d hd
          exact Or.inr (by omega)
    have hbefore := hr.templatesBefore_of_closed hstate hn (by omega) houtside
    have hopened := hr.templatesBefore_start he hbefore
    have hr' : Readings xsl ls ((front ++ [e]) ++ back) := by
      rw [List.append_assoc, List.singleton_append]
      exact hr
    have hfront' : ∀ m, e.start < m → ∀ d ∈ front ++ [e], d.start < m := by
      intro m hm d hd
      rcases List.mem_append.mp hd with hd | hd
      · have hlt := hfront d hd
        omega
      · rw [List.mem_singleton.mp hd]
        exact hm
    cases hpattern : e.tag.pattern? with
    | none =>
      have hlost : e.isLost = false := by rw [Extent.isLost, hpattern]; rfl
      have hplace : e.place? = none := by rw [Extent.place?, hpattern]; rfl
      have hback' : ∀ d ∈ back, e.start + 1 ≤ d.start := fun d hd => by
        have hlt := hbehind d hd
        omega
      rw [hpattern, Option.map_none] at hopened
      rw [ih hr' (by omega) (hfront' _ (by omega)) hback' hopened, reported_cons hlost, hplace]
      rfl
    | some pattern =>
      cases hlost : e.isLost with
      | false =>
        obtain ⟨t, ht, hplace⟩ := hr.complete he hpattern hlost hbefore
        rw [ih hr' (by omega) (hfront' _ (by omega)) (fun d hd => hbehind d hd) ht,
          reported_cons hlost, hplace]
        simp
      | true =>
        rw [hpattern, Option.map_some] at hopened
        obtain ⟨u, hu, -⟩ := hr.open_behind_lost hlost rfl hopened (n := ls.length) (by omega)
          (Nat.le_refl _)
        rw [hu, reported_cons_of_isLost hlost]
        rfl

end

/-! ## Flat stylesheets -/

/-- Of a flat stylesheet that is not misread the templates with a pattern are reported, each with its
pattern and the lines of its tags, up to the first one whose end tag stands on the line of its start
tag or spans lines. -/
theorem templates_flat {xsl : List Char} {parts : List Part} (hflat : Flat xsl parts)
    (hread : ¬ Misread xsl parts) :
    (templates (String.ofList (render (document xsl parts)))).map Template.place =
      reported (extents xsl 0 parts) := by
  have hr : Readings xsl (lines (render (document xsl parts))) ([] ++ extents xsl 0 parts) :=
    hflat.readings hread
  have hplaces := hr.places_behind (Nat.zero_le _) (List.forall_mem_nil _)
    (fun _ _ => Nat.zero_le _) (templatesBefore_zero _ _)
  rw [templates_eq, String.toList_ofList, hflat.binds, List.map_reverse, hplaces]
  simp

/-- A start tag whose pattern is one character, with two blanks before and behind its attribute. -/
def sampleTag (c : Char) (h : '<' ∉ [c] ∧ '"' ∉ [c]) : TemplateTag where
  attributes := [{
    name := "match".toList
    quote := .double
    value := [c]
    before := [' ', ' ']
    left := []
    right := []
    name_ok := fun _ hd => Report.not_mem_of_isPrefixChar (List.all_eq_true.mp (by decide) _ hd)
    value_ok := h
    before_ne_nil := List.cons_ne_nil _ _
    blank := List.all_eq_true.mp (by decide) }]
  trailing := [' ', ' ']
  blank := List.all_eq_true.mp (by decide)

/-- A stylesheet with three templates that have a pattern: one whose end tag is found, one on a single
line, and one behind that. -/
def sampleParts : List Part :=
  [.token (.opens "xsl:stylesheet".toList []), .token (.text ['\n']),
    .template (sampleTag '/' (by decide)) [.text ['\n']] [], .token (.text ['\n']),
    .template (sampleTag 'b' (by decide)) [.empty ['b'] []] [], .token (.text ['\n']),
    .template (sampleTag 'c' (by decide)) [.text ['\n']] [' '],
    .token (.closes "xsl:stylesheet".toList [])]

/-- The sample start tags are read as they are. -/
theorem not_obscured_sampleTag {c : Char} (h : '<' ∉ [c] ∧ '"' ∉ [c]) (hc : c ≠ '>') :
    ¬ Obscured (sampleTag c h) false := by
  have hgives : ∀ {front behind a}, (sampleTag c h).Gives front a behind →
      front = [] ∧ behind = [] ∧ a.value = [c] ∧ a.left ++ a.right = [] := by
    rintro front behind a ⟨hattributes, -, -⟩
    obtain ⟨rfl, ha⟩ | ⟨-, ha⟩ := List.append_eq_singleton_iff.mp hattributes.symm
    · obtain ⟨rfl, rfl⟩ := List.cons.inj ha
      exact ⟨rfl, rfl, rfl, rfl⟩
    · exact absurd ha (by simp)
  intro hobscured
  cases hobscured with
  | spaced ht hspaced => exact hspaced (hgives ht).2.2.2
  | hidden ht hb => exact absurd hb (by simp [(hgives ht).1])
  | repeated ht hshows =>
    obtain ⟨-, rfl, hvalue, -⟩ := hgives ht
    obtain ⟨d, -, hinfix⟩ := hshows
    have hlength := hinfix.length_le
    simp [hvalue, TemplateTag.rest, sampleTag, visible, hc] at hlength
  | feigned ht => exact absurd ht (by simp [sampleTag, TemplateTag.pattern?, givesPattern])
  | mistaken ht hslash =>
    obtain ⟨-, rfl, -, -⟩ := hgives ht
    exact hslash rfl
  | slashed _ hslash =>
    simp [sampleTag, TemplateTag.inside, TemplateTag.rest, StartAttribute.chars,
      StartAttribute.front, Quote.char, visible, hc, endsWithSlash] at hslash

/-- The sample is flat: its start tags of templates begin their lines. -/
theorem flat_sampleParts : Flat "xsl".toList sampleParts where
  binds := by rfl
  sound := List.all_iff_forall_prop.mp (by decide)
  apart := by decide
  begins := by
    have hall : (List.range 8).all (fun n => (sampleParts[n]?.bind Part.tag?).all fun tag =>
        decide ('\n' ∉ tag.inside false) &&
          beginsLine (render (document "xsl".toList (sampleParts.take n)))) = true := by decide
    intro ps p qs hparts tag htag
    have hps : sampleParts.take ps.length = ps := by rw [hparts, List.take_left]
    have hp : sampleParts[ps.length]? = some p := by simp [hparts]
    have hlength : ps.length < 8 := (List.getElem?_eq_some_iff.mp hp).1
    have hchecked := List.all_eq_true.mp hall ps.length (List.mem_range.mpr hlength)
    rw [hp, hps, Option.bind_some, htag, Option.all_some, Bool.and_eq_true,
      decide_eq_true_eq] at hchecked
    exact hchecked

/-- The sample holds no asides, and no names that begin like that of templates. -/
theorem not_misread_sampleParts : ¬ Misread "xsl".toList sampleParts := by
  have hshows : ∀ looks k before, ¬ Shows (document "xsl".toList sampleParts) looks k before := by
    rintro looks k before ⟨i, kind, inside, rest, hmem, -⟩
    obtain ⟨ps, qs, hdoc, -⟩ := mem_numbered.mp hmem
    have haside : Token.aside kind inside ∈ document "xsl".toList sampleParts :=
      hdoc ▸ List.mem_append_right ps List.mem_cons_self
    simp [document, sampleParts, Part.tokens, startTag] at haside
  intro hread
  cases hread with
  | empty ht => simp [sampleParts] at ht
  | tag he h =>
    simp [sampleParts, extents, Part.extent?] at he
    rcases he with rfl | rfl | rfl
    · exact not_obscured_sampleTag _ (by decide) h
    · exact not_obscured_sampleTag _ (by decide) h
    · exact not_obscured_sampleTag _ (by decide) h
  | alike ht hname hother h =>
    obtain ⟨r, hr, -⟩ := h
    have hnames : (document "xsl".toList sampleParts).all (fun t => t.name?.all fun name =>
        name == templateName "xsl".toList || !(templateName "xsl".toList).isPrefixOf name) = true := by
      decide
    have hchecked := List.all_eq_true.mp hnames _ ht
    rw [hname, Option.all_some, Bool.or_eq_true, Bool.not_eq_true'] at hchecked
    rcases hchecked with hsame | hprefix
    · exact hother (beq_iff_eq.mp hsame)
    · rw [(List.cons.inj hr).2, List.isPrefixOf_iff_prefix.mpr (List.prefix_append _ _)] at hprefix
      exact absurd hprefix (by decide)
  | begins _ h => exact hshows _ _ _ h
  | inner _ _ _ _ h => exact hshows _ _ _ h
  | ends _ _ _ _ h => exact hshows _ _ _ h

/-- Of the sample the first template is reported; the second one is not, and takes the third with it.
-/
theorem templates_flat_sampleParts :
    Flat "xsl".toList sampleParts ∧ ¬ Misread "xsl".toList sampleParts ∧
      (templates (String.ofList (render (document "xsl".toList sampleParts)))).map Template.place =
        [("/", 2, 3)] := by
  refine ⟨flat_sampleParts, not_misread_sampleParts, ?_⟩
  exact (templates_flat flat_sampleParts not_misread_sampleParts).trans (by rfl)

end StylesheetTrace.Stylesheet
