import Mathlib.Data.List.Infix
import StylesheetTrace.Proofs.Stylesheet.Insertion

/-!
# Comments and CDATA sections

A scan of the whole text from the left finds its comments and its CDATA sections: each goes from its
start to the next stop of its kind, and inside one of them no other begins. The scan of the lines
keeps a single flag for comments instead. No line is inserted before one that begins inside a
comment, except for the comments that the flag overlooks, which are named
(`overlooked_of_inserts`): one whose start runs into the end of a comment, one that begins on a line
on which an earlier comment ends, and those that stand behind a CDATA section with the start of a
comment in it. CDATA sections themselves are not told from the content around them.

The proof reads the text once and states where the scan from the left stands after each beginning of
it (`Place.next_cases`), and then carries along the lines what the flag says about that place.
-/

namespace StylesheetTrace.Stylesheet

open StylesheetTrace.Text

/-! ## The scan from the left -/

/-- The stretches of a text that are not read as markup. -/
inductive SectionKind where
  | comment
  | cdata
  deriving Repr, DecidableEq

namespace SectionKind

/-- The word that begins a section. -/
def start : SectionKind → List Char
  | comment => "<!--".toList
  | cdata => "<![CDATA[".toList

/-- The word that ends a section. -/
def stop : SectionKind → List Char
  | comment => "-->".toList
  | cdata => "]]>".toList

end SectionKind

/-- Where the scan from the left stands. -/
structure Place where
  /-- The section in which it is, if it is in one. -/
  within : Option SectionKind
  /-- What it has read since it came into that section or out of the last one. -/
  since : List Char
  deriving Repr, DecidableEq

/-- The scan reads one more character. -/
def Place.next (p : Place) (c : Char) : Place :=
  let read := p.since ++ [c]
  match p.within with
  | some kind => if kind.stop <:+ read then ⟨none, []⟩ else ⟨some kind, read⟩
  | none =>
    if SectionKind.comment.start <:+ read then ⟨some .comment, []⟩
    else if SectionKind.cdata.start <:+ read then ⟨some .cdata, []⟩
    else ⟨none, read⟩

/-- Where the scan from the left stands after a text. -/
def placeAfter (text : List Char) : Place :=
  text.foldl Place.next ⟨none, []⟩

/-- What one more character can do: it ends the section that is open or is read inside it, and
outside it completes the start of a section or none. -/
theorem Place.next_cases {p q : Place} {c : Char} (h : p.next c = q) :
    (∃ kind, p.within = some kind ∧ kind.stop <:+ p.since ++ [c] ∧ q = ⟨none, []⟩) ∨
    (∃ kind, p.within = some kind ∧ ¬ kind.stop <:+ p.since ++ [c] ∧
      q = ⟨some kind, p.since ++ [c]⟩) ∨
    (∃ kind : SectionKind, p.within = none ∧ kind.start <:+ p.since ++ [c] ∧
      q = ⟨some kind, []⟩) ∨
    (p.within = none ∧ (∀ kind : SectionKind, ¬ kind.start <:+ p.since ++ [c]) ∧
      q = ⟨none, p.since ++ [c]⟩) := by
  subst h
  unfold Place.next
  cases hwithin : p.within with
  | some kind =>
    by_cases hstop : kind.stop <:+ p.since ++ [c]
    · exact Or.inl ⟨kind, rfl, hstop, if_pos hstop⟩
    · exact Or.inr (Or.inl ⟨kind, rfl, hstop, if_neg hstop⟩)
  | none =>
    by_cases hcomment : SectionKind.comment.start <:+ p.since ++ [c]
    · exact Or.inr (Or.inr (Or.inl ⟨.comment, rfl, hcomment, if_pos hcomment⟩))
    · by_cases hcdata : SectionKind.cdata.start <:+ p.since ++ [c]
      · exact Or.inr (Or.inr (Or.inl
          ⟨.cdata, rfl, hcdata, (if_neg hcomment).trans (if_pos hcdata)⟩))
      · refine Or.inr (Or.inr (Or.inr
          ⟨rfl, fun kind => ?_, (if_neg hcomment).trans (if_neg hcdata)⟩))
        cases kind with
        | comment => exact hcomment
        | cdata => exact hcdata

/-- The scan goes on behind a text from where it stands. -/
theorem placeAfter_append (s t : List Char) :
    placeAfter (s ++ t) = t.foldl Place.next (placeAfter s) :=
  List.foldl_append

/-- The scan reads the last character from where it stands before it. -/
theorem placeAfter_concat (s : List Char) (c : Char) :
    placeAfter (s ++ [c]) = (placeAfter s).next c := by
  rw [placeAfter_append, List.foldl_cons, List.foldl_nil]

/-- What was read since a section began or ended is the end of the text. -/
theorem since_suffix (text : List Char) : (placeAfter text).since <:+ text := by
  induction text using List.reverseRecOn with
  | nil => exact List.suffix_refl _
  | append_singleton text c ih =>
    have hread : (placeAfter text).since ++ [c] <:+ text ++ [c] := by
      obtain ⟨before, hbefore⟩ := ih
      exact ⟨before, by rw [← List.append_assoc, hbefore]⟩
    rw [placeAfter_concat]
    rcases Place.next_cases (p := placeAfter text) (c := c) rfl with ⟨_, -, -, hq⟩ |
      ⟨_, -, -, hq⟩ | ⟨_, -, -, hq⟩ | ⟨-, -, hq⟩
    · rw [hq]
      exact List.nil_suffix
    · rw [hq]
      exact hread
    · rw [hq]
      exact List.nil_suffix
    · rw [hq]
      exact hread

/-- An open section stands behind its start and holds no stop. -/
theorem placeAfter_within {text inside : List Char} {kind : SectionKind}
    (h : placeAfter text = ⟨some kind, inside⟩) :
    (∃ before, text = before ++ (kind.start ++ inside)) ∧ ¬ kind.stop <:+: inside := by
  induction text using List.reverseRecOn generalizing inside with
  | nil => exact absurd (Place.mk.inj h).1 (by simp)
  | append_singleton text c ih =>
    rw [placeAfter_concat] at h
    rcases Place.next_cases h with ⟨_, -, -, hq⟩ | ⟨k, hwithin, hstop, hq⟩ | ⟨k, -, hstart, hq⟩ |
      ⟨-, -, hq⟩
    · exact absurd (Place.mk.inj hq).1 (by simp)
    · obtain ⟨hkind, rfl⟩ := Place.mk.inj hq
      obtain rfl := Option.some.inj hkind
      have hplace : placeAfter text = ⟨some kind, (placeAfter text).since⟩ := by rw [← hwithin]
      obtain ⟨⟨before, hbefore⟩, hfree⟩ := ih hplace
      refine ⟨⟨before, ?_⟩, fun hfound => ?_⟩
      · calc text ++ [c] = before ++ (kind.start ++ (placeAfter text).since) ++ [c] := by
              rw [← hbefore]
          _ = before ++ (kind.start ++ ((placeAfter text).since ++ [c])) := by
              simp only [List.append_assoc]
      · -- A stop in the section would end with the character, or lie before it.
        rcases List.infix_concat_iff.mp hfound with hlast | hearlier
        · exact hstop hlast
        · exact hfree hearlier
    · obtain ⟨hkind, rfl⟩ := Place.mk.inj hq
      obtain rfl := Option.some.inj hkind
      obtain ⟨read, hread⟩ := hstart
      obtain ⟨before, hbefore⟩ := since_suffix text
      refine ⟨⟨before ++ read, ?_⟩, fun hfound => ?_⟩
      · calc text ++ [c] = before ++ ((placeAfter text).since ++ [c]) := by
              rw [← List.append_assoc, hbefore]
          _ = before ++ read ++ (kind.start ++ []) := by
              rw [← hread, List.append_nil, List.append_assoc]
      · rw [List.infix_nil] at hfound
        cases kind <;> exact absurd hfound (by decide)
    · exact absurd (Place.mk.inj hq).1 (by simp)

/-- A section goes on as long as its stop is not read. -/
theorem placeAfter_append_of_not_infix {text inside t : List Char} {kind : SectionKind}
    (h : placeAfter text = ⟨some kind, inside⟩) (hfree : ¬ kind.stop <:+: inside ++ t) :
    placeAfter (text ++ t) = ⟨some kind, inside ++ t⟩ := by
  induction t using List.reverseRecOn with
  | nil => rwa [List.append_nil, List.append_nil]
  | append_singleton t c ih =>
    rw [← List.append_assoc] at hfree
    have hplace := ih fun hfound => hfree (hfound.trans (List.prefix_append _ _).isInfix)
    rw [← List.append_assoc, placeAfter_concat, hplace, ← List.append_assoc]
    exact if_neg fun hstop => hfree hstop.isInfix

/-- Outside sections the scan reads on as long as no start is read. -/
theorem placeAfter_append_of_no_start {text since t : List Char}
    (h : placeAfter text = ⟨none, since⟩)
    (hfree : ∀ kind : SectionKind, ¬ kind.start <:+: since ++ t) :
    placeAfter (text ++ t) = ⟨none, since ++ t⟩ := by
  induction t using List.reverseRecOn with
  | nil => rwa [List.append_nil, List.append_nil]
  | append_singleton t c ih =>
    have hplace := ih fun kind hfound => hfree kind (hfound.trans ⟨[], [c], by simp⟩)
    have hnone : ∀ kind : SectionKind, ¬ kind.start <:+ since ++ t ++ [c] := by
      intro kind hstart
      rw [List.append_assoc] at hstart
      exact hfree kind hstart.isInfix
    rw [← List.append_assoc, placeAfter_concat, hplace, ← List.append_assoc]
    exact (if_neg (hnone .comment)).trans (if_neg (hnone .cdata))

/-- A section that is open behind a text was open wherever the text ends inside it. -/
theorem placeAfter_of_append {text inside t : List Char} {kind : SectionKind}
    (h : placeAfter (text ++ t) = ⟨some kind, inside ++ t⟩) :
    placeAfter text = ⟨some kind, inside⟩ := by
  induction t using List.reverseRecOn with
  | nil => rwa [List.append_nil, List.append_nil] at h
  | append_singleton t c ih =>
    rw [← List.append_assoc, ← List.append_assoc, placeAfter_concat] at h
    refine ih ?_
    rcases Place.next_cases h with ⟨_, -, -, hq⟩ | ⟨k, hwithin, -, hq⟩ | ⟨k, -, -, hq⟩ | ⟨-, -, hq⟩
    · exact absurd (Place.mk.inj hq).1 (by simp)
    · obtain ⟨hkind, hsince⟩ := Place.mk.inj hq
      rw [← hkind] at hwithin
      have hsince := (List.append_inj' hsince rfl).1
      calc placeAfter (text ++ t) = ⟨(placeAfter (text ++ t)).within,
            (placeAfter (text ++ t)).since⟩ := rfl
        _ = ⟨some kind, inside ++ t⟩ := by rw [hwithin, ← hsince]
    · exact absurd (Place.mk.inj hq).2 (by simp)
    · exact absurd (Place.mk.inj hq).1 (by simp)

/-! ## Starts of comments -/

/-- A text does not end with a word whose last characters are others than its own. -/
theorem not_suffix_of_ne {w v s u : List Char} (hlen : w.length = u.length) (hne : w ≠ u) :
    ¬ v ++ w <:+ s ++ u := by
  rintro ⟨t, ht⟩
  rw [← List.append_assoc] at ht
  exact hne (List.append_inj' ht hlen).2

/-- The start of a comment, read outside, opens one. -/
theorem foldl_next_start (since : List Char) :
    SectionKind.comment.start.foldl Place.next ⟨none, since⟩ = ⟨some .comment, []⟩ := by
  have hcomment : SectionKind.comment.start = ['<', '!', '-'] ++ ['-'] := rfl
  have hcdata : SectionKind.cdata.start = ['<', '!', '[', 'C', 'D', 'A', 'T', 'A'] ++ ['['] := rfl
  have houtside : ∀ s c, ¬ SectionKind.comment.start <:+ s ++ [c] →
      ¬ SectionKind.cdata.start <:+ s ++ [c] → Place.next ⟨none, s⟩ c = ⟨none, s ++ [c]⟩ :=
    fun s c hone htwo => (if_neg hone).trans (if_neg htwo)
  -- Of its four characters the first two end no start, and the third only behind another one.
  have hskip : ∀ s c, c ≠ '-' → c ≠ '[' → Place.next ⟨none, s⟩ c = ⟨none, s ++ [c]⟩ := by
    intro s c hdash hbracket
    refine houtside s c ?_ ?_
    · rw [hcomment]
      exact not_suffix_of_ne rfl (by simpa using Ne.symm hdash)
    · rw [hcdata]
      exact not_suffix_of_ne rfl (by simpa using Ne.symm hbracket)
  have hthird : Place.next ⟨none, since ++ ['<'] ++ ['!']⟩ '-' =
      ⟨none, since ++ ['<'] ++ ['!'] ++ ['-']⟩ := by
    refine houtside _ _ ?_ ?_
    · rw [List.append_assoc _ ['!']]
      exact not_suffix_of_ne (v := ['<', '!']) (w := ['-', '-']) rfl (by decide)
    · rw [hcdata]
      exact not_suffix_of_ne rfl (by decide)
  have hlast : Place.next ⟨none, since ++ ['<'] ++ ['!'] ++ ['-']⟩ '-' = ⟨some .comment, []⟩ :=
    if_pos ⟨since, by simp [hcomment]⟩
  calc SectionKind.comment.start.foldl Place.next ⟨none, since⟩
      = (((Place.next ⟨none, since⟩ '<').next '!').next '-').next '-' := rfl
    _ = ⟨some .comment, []⟩ := by
        rw [hskip _ _ (by decide) (by decide), hskip _ _ (by decide) (by decide), hthird, hlast]

/-- A word whose last character does not stand in a text does not end there. -/
theorem not_infix_append_of_not_mem {w s t : List Char} {d : Char} (h : ¬ w ++ [d] <:+: s)
    (hd : d ∉ t) : ¬ w ++ [d] <:+: s ++ t := by
  induction t using List.reverseRecOn with
  | nil => rwa [List.append_nil]
  | append_singleton t c ih =>
    rw [List.mem_append, List.mem_singleton, not_or] at hd
    rw [← List.append_assoc, List.infix_concat_iff, not_or]
    exact ⟨not_suffix_of_ne rfl (by simpa using hd.2), ih hd.1⟩

/-- Behind the start of a comment the scan stands in a comment, unless the start stands in a CDATA
section. -/
theorem placeAfter_start (text : List Char) :
    (∃ inside, placeAfter (text ++ SectionKind.comment.start) = ⟨some .comment, inside⟩ ∧
      (inside = [] ∨ ∃ before, ¬ SectionKind.comment.stop <:+: before ∧
        inside = before ++ SectionKind.comment.start)) ∨
    ∃ inside, placeAfter text = ⟨some .cdata, inside⟩ := by
  cases hplace : placeAfter text with
  | mk within since =>
    cases within with
    | some kind =>
      cases kind with
      | comment =>
        -- No stop ends inside the start, since its last character does not stand in the start.
        have hsince := (placeAfter_within hplace).2
        have hfree : ¬ SectionKind.comment.stop <:+: since ++ SectionKind.comment.start :=
          @not_infix_append_of_not_mem ['-', '-'] since _ '>' hsince (by decide)
        exact Or.inl ⟨_, placeAfter_append_of_not_infix hplace hfree, Or.inr ⟨since, hsince, rfl⟩⟩
      | cdata => exact Or.inr ⟨since, rfl⟩
    | none =>
      refine Or.inl ⟨[], ?_, Or.inl rfl⟩
      rw [placeAfter_append, hplace, foldl_next_start]

/-- Behind the start of a comment and a text in which this comment does not end the scan stands in a
comment, unless the start stands in a CDATA section. -/
theorem comment_of_unclosed {text t : List Char}
    (h : ¬ SectionKind.comment.stop <:+: SectionKind.comment.start ++ t) :
    (∃ inside, placeAfter (text ++ (SectionKind.comment.start ++ t)) = ⟨some .comment, inside⟩) ∨
      ∃ inside, placeAfter text = ⟨some .cdata, inside⟩ := by
  rw [← List.append_assoc]
  rcases placeAfter_start text with ⟨inside, hplace, hinside⟩ | hcdata
  · refine Or.inl ⟨inside ++ t, placeAfter_append_of_not_infix hplace fun hstop => h ?_⟩
    rcases hinside with rfl | ⟨before, hbefore, rfl⟩
    · exact hstop.trans (List.suffix_append _ t).isInfix
    · -- The stop holds no character with which a start begins, so it lies on one side of it.
      rw [List.append_assoc] at hstop
      rcases infix_of_infix_append_cons (d := '<') (by decide) hstop with hearlier | hlater
      · exact absurd hearlier hbefore
      · exact hlater.trans (List.suffix_cons '<' _).isInfix
  · exact Or.inr hcdata

/-! ## The flag of the lines -/

/-- The text of a comment begins with what, behind its start, makes up a stop. -/
def Touches (inside : List Char) : Prop :=
  ['>'] <+: inside ∨ ['-', '>'] <+: inside

/-- A stop in a comment with its start lies behind the start, or runs into it. -/
theorem stop_infix_start {inside : List Char} :
    SectionKind.comment.stop <:+: SectionKind.comment.start ++ inside ↔
      Touches inside ∨ SectionKind.comment.stop <:+: inside := by
  have hstop : SectionKind.comment.stop = ['-', '-', '>'] := rfl
  have hstart : SectionKind.comment.start ++ inside = '<' :: '!' :: '-' :: '-' :: inside := rfl
  rw [hstop, hstart]
  simp [List.infix_cons_iff, Touches, or_assoc]

/-- A line leaves a comment open exactly when no stop stands behind the last start on it. -/
theorem leavesComment_cases (line : List Char) :
    (leavesComment line = true ∧ ∃ before inside,
      line = before ++ (SectionKind.comment.start ++ inside) ∧
      ¬ SectionKind.comment.stop <:+: SectionKind.comment.start ++ inside) ∨
    (leavesComment line = false ∧ ∀ before inside,
      line = before ++ (SectionKind.comment.start ++ inside) →
      Touches inside ∨ SectionKind.comment.stop <:+: inside) := by
  unfold leavesComment
  rcases @lastTail?_cases SectionKind.comment.start (by decide) line with
    ⟨hnone, hword⟩ | ⟨tail, htail, ⟨before, hbefore⟩, ⟨inside, hinside⟩, hlast⟩
  · refine Or.inr ⟨?_, fun before inside hline => ?_⟩
    · rw [show lastTail? "<!--".toList line = none from hnone]
    · exact absurd (List.prefix_append _ inside) (hword _ ⟨before, hline.symm⟩)
  · rw [show lastTail? "<!--".toList line = some tail from htail]
    dsimp only
    cases hoccurs : occurs "-->".toList tail with
    | false =>
      refine Or.inl ⟨rfl, before, inside, by rw [hinside, hbefore], ?_⟩
      rw [hinside]
      exact occurs_eq_false.mp hoccurs
    | true =>
      refine Or.inr ⟨rfl, fun before' inside' hline => ?_⟩
      -- The last start is this one or a later one, and it has the stop behind it.
      have hsuffix := hlast _ ⟨before', hline.symm⟩ (List.prefix_append _ inside')
      rw [← stop_infix_start]
      exact (occurs_iff.mp hoccurs).trans hsuffix.isInfix

/-- The scan of the lines takes line `n` for one that begins inside a comment. -/
def flagAt (content : List Char) (n : Nat) : Bool :=
  (stateAt (instructionPrefix content) (lines content) n).inComment

/-- While the flag is set any stop clears it; otherwise the last start on the line decides. -/
theorem flagAt_succ {content line : List Char} {n : Nat} (h : (lines content)[n]? = some line) :
    flagAt content (n + 1) =
      if flagAt content n then !occurs "-->".toList line else leavesComment line := by
  unfold flagAt
  rw [stateAt_succ h, scanLine]
  split <;> rfl

/-- No stop runs into the end of a line. -/
theorem IsLineFeed.not_stop_infix {feed s : List Char} {kind : SectionKind} (hfeed : IsLineFeed feed)
    (h : ¬ kind.stop <:+: s) : ¬ kind.stop <:+: s ++ feed := by
  have hlast : '>' ∉ feed := by rcases hfeed with rfl | rfl <;> decide
  cases kind with
  | comment => exact @not_infix_append_of_not_mem ['-', '-'] s feed '>' h hlast
  | cdata => exact @not_infix_append_of_not_mem [']', ']'] s feed '>' h hlast

/-- No section ends on the break between two lines, so a line without a stop leaves it open. -/
theorem placeAfter_append_line {content inside line feed : List Char} {n : Nat}
    {kind : SectionKind} (hn : n < (lines content).length)
    (h : placeAfter (textBefore n content) = ⟨some kind, inside⟩)
    (hfree : ¬ kind.stop <:+: line) (hfeed : IsLineFeed feed) :
    placeAfter (textBefore n content ++ (line ++ feed)) =
      ⟨some kind, inside ++ (line ++ feed)⟩ := by
  have hinside : inside <:+ textBefore n content := by
    have hsince := since_suffix (textBefore n content)
    rwa [h] at hsince
  have hline : ¬ kind.stop <:+: line ++ feed := hfeed.not_stop_infix hfree
  refine placeAfter_append_of_not_infix h fun hstop => ?_
  rcases List.eq_nil_or_concat inside with rfl | ⟨before, c, rfl⟩
  · exact hline hstop
  · -- The text before a line ends with a line feed, which stands in no stop.
    obtain rfl : c = '\n' := by
      rcases textBefore_eq n content hn with hnil | ⟨t, ht⟩
      · rw [hnil, List.suffix_nil] at hinside
        exact absurd hinside (by simp)
      · rw [ht, List.concat_eq_append] at hinside
        obtain ⟨u, hu⟩ := hinside
        rw [← List.append_assoc] at hu
        exact (List.cons.inj (List.append_inj' hu rfl).2).1
    have hfeedless : '\n' ∉ kind.stop := by cases kind <;> decide
    rw [List.concat_eq_append, List.append_assoc] at hstop
    rcases infix_of_infix_append_cons hfeedless hstop with hearlier | hlater
    · refine (placeAfter_within h).2 (hearlier.trans ?_)
      rw [List.concat_eq_append]
      exact (List.prefix_append before _).isInfix
    · exact hline hlater

/-- A line before line `n` holds, in a CDATA section, the start of a comment without a stop behind
it. -/
def Hides (content : List Char) (n : Nat) : Prop :=
  ∃ m < n, ∃ before rest inside,
    (lines content)[m]? = some (before ++ (SectionKind.comment.start ++ rest)) ∧
    ¬ SectionKind.comment.stop <:+: SectionKind.comment.start ++ rest ∧
    placeAfter (textBefore m content ++ before) = ⟨some .cdata, inside⟩

/-- What the lines before a line hold is held by those before the next one. -/
theorem Hides.succ {content : List Char} {n : Nat} (h : Hides content n) :
    Hides content (n + 1) := by
  obtain ⟨m, hm, hhides⟩ := h
  exact ⟨m, Nat.lt_succ_of_lt hm, hhides⟩

/-- Where the flag is set the scan from the left stands in a comment, if no CDATA section holds the
start of one. -/
theorem placeAfter_of_flagAt {content : List Char} {n : Nat} (hn : n < (lines content).length)
    (h : flagAt content n = true) :
    (∃ inside, placeAfter (textBefore n content) = ⟨some .comment, inside⟩) ∨
      Hides content n := by
  induction n with
  | zero => exact absurd h (by simp [flagAt, stateAt])
  | succ n ih =>
    obtain ⟨line, feed, hline, -, hfeed, htext⟩ := textBefore_succ hn
    rw [flagAt_succ hline] at h
    rw [htext]
    cases hflag : flagAt content n with
    | true =>
      rw [hflag, if_pos rfl, Bool.not_eq_true', occurs_eq_false] at h
      rcases ih (by omega) hflag with ⟨inside, hplace⟩ | hhides
      · exact Or.inl ⟨_, placeAfter_append_line (by omega) hplace h hfeed⟩
      · exact Or.inr hhides.succ
    | false =>
      rw [hflag, if_neg Bool.false_ne_true] at h
      rcases leavesComment_cases line with ⟨-, before, rest, rfl, hfree⟩ | ⟨hfalse, -⟩
      · have hopen : ¬ SectionKind.comment.stop <:+:
            SectionKind.comment.start ++ (rest ++ feed) := by
          rw [← List.append_assoc]
          exact hfeed.not_stop_infix hfree
        rcases @comment_of_unclosed (textBefore n content ++ before) _ hopen with
          ⟨inside, hplace⟩ | ⟨inside, hcdata⟩
        · refine Or.inl ⟨inside, ?_⟩
          simpa only [List.append_assoc] using hplace
        · exact Or.inr ⟨n, Nat.lt_succ_self n, before, rest, inside, hline, hfree, hcdata⟩
      · exact absurd (hfalse.symm.trans h) Bool.false_ne_true

/-! ## Comments that are overlooked -/

/-- Why the flag can overlook a comment with the text `inside` that is open before line `n`: its
start runs into a stop, it begins on a line that itself begins inside a comment, or a CDATA section
before line `n` holds what looks like the start of a comment. -/
inductive Overlooked (content : List Char) (n : Nat) (inside : List Char) : Prop where
  | touching (h : Touches inside)
  | reopened (m : Nat) (before outer : List Char)
      (htext : textBefore n content =
        textBefore m content ++ (before ++ (SectionKind.comment.start ++ inside)))
      (hline : '\n' ∉ before)
      (hplace : placeAfter (textBefore m content) = ⟨some .comment, outer⟩)
  | hidden (h : Hides content n)

/-- What follows in a comment does not change with what it begins. -/
theorem Touches.append {inside : List Char} (h : Touches inside) (t : List Char) :
    Touches (inside ++ t) := by
  rcases h with h | h
  · exact Or.inl (h.trans (List.prefix_append inside t))
  · exact Or.inr (h.trans (List.prefix_append inside t))

/-- A comment that is overlooked before a line is still so before the next one, if it is open. -/
theorem Overlooked.append {content inside t : List Char} {n : Nat}
    (h : Overlooked content n inside)
    (htext : textBefore (n + 1) content = textBefore n content ++ t) :
    Overlooked content (n + 1) (inside ++ t) := by
  cases h with
  | touching h => exact .touching (h.append t)
  | reopened m before outer hbegins hline hplace =>
    refine .reopened m before outer ?_ hline hplace
    rw [htext, hbegins]
    simp only [List.append_assoc]
  | hidden h => exact .hidden h.succ

/-- The start of a comment that is open behind a line stands on that line or before it. -/
theorem start_before_or_on {content t before inside : List Char} {n : Nat}
    (hn : n < (lines content).length)
    (h : textBefore n content ++ t = before ++ (SectionKind.comment.start ++ inside)) :
    (∃ part, t = part ++ (SectionKind.comment.start ++ inside)) ∨
      ∃ part, inside = part ++ t := by
  rcases List.append_eq_append_iff.mp h with ⟨part, -, ht⟩ | ⟨part, hpart, ht⟩
  · exact Or.inl ⟨part, ht⟩
  · rcases textBefore_eq n content hn with hnil | ⟨u, hu⟩
    · rw [hnil, List.nil_eq_append_iff] at hpart
      rw [hpart.2, List.nil_append] at ht
      exact Or.inl ⟨[], ht.symm⟩
    · rw [hu] at hpart
      rcases List.eq_nil_or_concat part with rfl | ⟨v, c, rfl⟩
      · exact Or.inl ⟨[], ht.symm⟩
      · -- The text before the line ends with a line feed, which does not stand in the start.
        rw [List.concat_eq_append, ← List.append_assoc] at hpart
        obtain rfl : '\n' = c := (List.cons.inj (List.append_inj' hpart rfl).2).1
        rw [List.concat_eq_append, List.append_assoc, List.singleton_append] at ht
        obtain ⟨w, -, hw⟩ := append_cons_eq_append (by decide) ht.symm
        exact Or.inr ⟨w ++ ['\n'], by rw [hw, List.append_assoc, List.singleton_append]⟩

/-- The start of a comment does not stand in the break behind a line. -/
theorem line_of_start {line feed before inside : List Char} (hfeed : IsLineFeed feed)
    (h : line ++ feed = before ++ (SectionKind.comment.start ++ inside)) :
    ∃ rest, line = before ++ (SectionKind.comment.start ++ rest) ∧ inside = rest ++ feed := by
  rw [← List.append_assoc] at h
  rcases List.append_eq_append_iff.mp h with ⟨part, hpart, hrest⟩ | ⟨rest, hline, hrest⟩
  · rcases List.eq_nil_or_concat part with rfl | ⟨v, c, rfl⟩
    · rw [List.append_nil] at hpart
      exact ⟨[], by rw [List.append_nil, hpart], hrest.symm⟩
    · -- The last character of the start would be one of the break.
      rw [List.concat_eq_append] at hpart hrest
      have hstart : SectionKind.comment.start = ['<', '!', '-'] ++ ['-'] := rfl
      rw [hstart, ← List.append_assoc, ← List.append_assoc] at hpart
      obtain rfl : '-' = c := (List.cons.inj (List.append_inj' hpart rfl).2).1
      have hmem : '-' ∈ feed := by simp [hrest]
      rcases hfeed with rfl | rfl
      · exact absurd hmem (by decide)
      · exact absurd hmem (by decide)
  · exact ⟨rest, by rw [hline, List.append_assoc], hrest⟩

/-- Where the flag is clear and a comment is open, the comment is one that the flag overlooks. -/
theorem overlooked_of_flagAt {content inside : List Char} {n : Nat}
    (hn : n < (lines content).length) (h : flagAt content n = false)
    (hplace : placeAfter (textBefore n content) = ⟨some .comment, inside⟩) :
    Overlooked content n inside := by
  induction n generalizing inside with
  | zero =>
    rw [textBefore_zero] at hplace
    exact absurd (Place.mk.inj hplace).1 (by simp)
  | succ n ih =>
    obtain ⟨line, feed, hline, hfeedless, hfeed, htext⟩ := textBefore_succ hn
    rw [flagAt_succ hline] at h
    obtain ⟨⟨before, hbefore⟩, hfree⟩ := placeAfter_within hplace
    have hbegins : textBefore n content ++ (line ++ feed) =
        before ++ (SectionKind.comment.start ++ inside) := htext.symm.trans hbefore
    rcases start_before_or_on (by omega) hbegins with ⟨part, hpart⟩ | ⟨part, rfl⟩
    · -- The comment begins on the line, and what the flag makes of it the line alone decides.
      obtain ⟨rest, rfl, rfl⟩ := line_of_start hfeed hpart
      cases hflag : flagAt content n with
      | true =>
        rcases placeAfter_of_flagAt (by omega) hflag with ⟨outer, houter⟩ | hhides
        · refine .reopened n part outer ?_ (fun hmem => hfeedless ?_) houter
          · rw [htext, hpart]
          · exact List.mem_append_left _ hmem
        · exact .hidden hhides.succ
      | false =>
        rw [hflag, if_neg Bool.false_ne_true] at h
        rcases leavesComment_cases (part ++ (SectionKind.comment.start ++ rest)) with
          ⟨htrue, -⟩ | ⟨-, hlast⟩
        · exact absurd (h.symm.trans htrue) Bool.false_ne_true
        · rcases hlast part rest rfl with htouches | hstop
          · exact .touching (htouches.append feed)
          · exact absurd (hstop.trans (List.prefix_append rest feed).isInfix) hfree
    · -- The comment was open before the line, on which it does not end, and the flag was clear.
      have hpart : placeAfter (textBefore n content) = ⟨some .comment, part⟩ :=
        placeAfter_of_append (htext ▸ hplace)
      cases hflag : flagAt content n with
      | false => exact (ih (by omega) hflag hpart).append htext
      | true =>
        rw [hflag, if_pos rfl, Bool.not_eq_false', occurs_iff] at h
        have hstop : SectionKind.comment.stop <:+: part ++ (line ++ feed) :=
          (h.trans (List.prefix_append line feed).isInfix).trans (List.suffix_append part _).isInfix
        exact absurd hstop hfree

/-- Before a line that begins inside a comment no line is inserted, unless the comment is one that the
flag overlooks. Of CDATA sections, in which lines are inserted as around them, nothing is said. -/
theorem overlooked_of_inserts {sentinel file : String} {content : List Char} {n : Nat}
    (h : Inserts sentinel file content n) {kind : SectionKind} {inside : List Char}
    (hplace : placeAfter (textBefore n content) = ⟨some kind, inside⟩) :
    kind = .cdata ∨ Overlooked content n inside := by
  obtain ⟨line, mark, hline, hflag, -, -⟩ := h.line
  have hn : n < (lines content).length := (List.getElem?_eq_some_iff.mp hline).1
  cases kind with
  | comment => exact Or.inr (overlooked_of_flagAt hn hflag hplace)
  | cdata => exact Or.inl rfl

/-- A template with a comment that begins on the line on which another one ends. -/
def reopenedComment : String :=
  "<xsl:template>\n<!-- a\n--> <!-- b\n<c/>\n-->\n</xsl:template>"

/-- A line is inserted inside the second comment of the sample, which the flag overlooks. -/
theorem overlooked_of_inserts_reopened :
    Inserts "TRACE" "a.xsl" reopenedComment.toList 3 ∧
      placeAfter (textBefore 3 reopenedComment.toList) = ⟨some .comment, " b\n".toList⟩ ∧
      Overlooked reopenedComment.toList 3 " b\n".toList := by
  have hinserts : Inserts "TRACE" "a.xsl" reopenedComment.toList 3 :=
    ⟨_, _, rfl, rfl, by decide⟩
  have hplace : placeAfter (textBefore 3 reopenedComment.toList) =
      ⟨some .comment, " b\n".toList⟩ := by decide +kernel
  refine ⟨hinserts, hplace, ?_⟩
  rcases overlooked_of_inserts hinserts hplace with hkind | hoverlooked
  · exact absurd hkind (by decide)
  · exact hoverlooked

end StylesheetTrace.Stylesheet
