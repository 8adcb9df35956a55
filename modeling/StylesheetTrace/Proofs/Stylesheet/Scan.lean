import StylesheetTrace.Stylesheet.Instrument
import StylesheetTrace.Proofs.Markup.Tag
import StylesheetTrace.Proofs.Text.Blank
import StylesheetTrace.Proofs.Text.Lines

/-!
# The scan of a stylesheet

The scan goes through the lines of a stylesheet in their order and gives each, where a marker goes
before it, the literal element that it opens (`literal_of_mem_scanLines`). The name of such an
element holds no character that could end a name or a marker.
-/

namespace StylesheetTrace.Stylesheet

open StylesheetTrace.Text StylesheetTrace.Markup

/-! ## Names of literal elements -/

/-- A character of the name of a literal element. -/
def IsNameChar (c : Char) : Prop :=
  isNameStart c = true ∨ isLiteralChar c = true ∨ c = ':'

/-- A blank stands in no name. -/
theorem IsNameChar.not_blank {c : Char} (h : IsNameChar c) : isBlank c = false := by
  have hblanks : ∀ n ∈ blankPoints, isNameStart (Char.ofNat n) = false ∧
      isLiteralChar (Char.ofNat n) = false ∧ Char.ofNat n ≠ ':' := by decide +kernel
  rw [← Bool.not_eq_true]
  intro hblank
  obtain ⟨hstart, hchar, hcolon⟩ := hblanks _ (mem_blankPoints_of_isBlank hblank)
  rw [Char.ofNat_toNat] at hstart hchar hcolon
  rcases h with h | h | h
  · exact Bool.false_ne_true (hstart.symm.trans h)
  · exact Bool.false_ne_true (hchar.symm.trans h)
  · exact hcolon h

/-- Characters that stand in no name. -/
theorem IsNameChar.ne {c d : Char} (h : IsNameChar c) (hstart : isNameStart d = false)
    (hchar : isLiteralChar d = false) (hcolon : d ≠ ':') : c ≠ d := by
  rintro rfl
  rcases h with h | h | h
  · exact Bool.false_ne_true (hstart.symm.trans h)
  · exact Bool.false_ne_true (hchar.symm.trans h)
  · exact hcolon h

/-- A character of a name ends no name. -/
theorem IsNameChar.endsName {c : Char} (h : IsNameChar c) : endsName [c] = false := by
  have hslash : c ≠ '/' := h.ne (by decide) (by decide) (by decide)
  have hgt : c ≠ '>' := h.ne (by decide) (by decide) (by decide)
  simp [Markup.endsName, h.not_blank, hslash, hgt]

/-- What a literal name and the text behind it make up, and the characters of the name. -/
theorem literalName?_eq_some {s name t : List Char} (h : literalName? s = some (name, t)) :
    s = name ++ t ∧ ∀ c ∈ name, IsNameChar c := by
  unfold literalName? at h
  obtain ⟨⟨first, rest⟩, hfirst, hsecond⟩ := Option.bind_eq_some_iff.mp h
  obtain ⟨rfl, hchars⟩ := word?_eq_some hfirst
  have hfirstname : ∀ c ∈ first, IsNameChar c := fun c hc =>
    (hchars c hc).elim Or.inl fun h => Or.inr (Or.inl h)
  -- Behind a colon the name goes on with a second part, if one can be read there.
  dsimp only at hsecond
  split at hsecond
  · rename_i u
    split at hsecond
    · rename_i second rest' hpart
      obtain ⟨rfl, rfl⟩ := Prod.mk.inj (Option.some.inj hsecond)
      obtain ⟨rfl, hsecondchars⟩ := word?_eq_some hpart
      refine ⟨by simp, fun c hc => ?_⟩
      rcases List.mem_append.mp hc with hc | hc
      · exact hfirstname c hc
      · rcases List.mem_cons.mp hc with rfl | hc
        · exact Or.inr (Or.inr rfl)
        · exact (hsecondchars c hc).elim Or.inl fun h => Or.inr (Or.inl h)
    · obtain ⟨rfl, rfl⟩ := Prod.mk.inj (Option.some.inj hsecond)
      exact ⟨rfl, hfirstname⟩
  · obtain ⟨rfl, rfl⟩ := Prod.mk.inj (Option.some.inj hsecond)
    exact ⟨rfl, hfirstname⟩

/-! ## Literal elements of lines -/

/-- The line opens an element: behind blanks stands a start tag whose name is `name`. -/
def Opens (line name : List Char) : Prop :=
  ∃ indent rest, line = indent ++ '<' :: (name ++ rest) ∧ (∀ c ∈ indent, isBlank c = true) ∧
    (∀ c ∈ name, endsName [c] = false) ∧ endsName rest = true

/-- The element that a line opens has the name that goes on, behind the blanks and the `<`, until a
character ends it. -/
theorem Opens.name_eq {line name : List Char} (h : Opens line name) :
    name = (line.dropWhile isBlank).tail.takeWhile fun c => !endsName [c] := by
  obtain ⟨indent, rest, rfl, hindent, hname, hrest⟩ := h
  have hhead : ∀ c ∈ ('<' :: (name ++ rest)).head?, isBlank c = false :=
    head?_cons_eq_false (by decide) _
  have hends : ∀ c ∈ rest.head?, (!endsName [c]) = false := by
    intro c hc
    obtain ⟨t, rfl⟩ := List.head?_eq_some_iff.mp hc
    rw [show endsName [c] = true from hrest]
    rfl
  rw [dropWhile_append_of_head hhead, List.dropWhile_eq_nil_iff.mpr hindent, List.nil_append,
    List.tail_cons, takeWhile_append_of_head hends, List.takeWhile_eq_self_iff.mpr]
  intro c hc
  rw [hname c hc]
  rfl

/-- A literal element is one that its line opens, behind the blanks of its indent. -/
theorem literal?_eq_some {xsl line : List Char} {mark : Literal}
    (h : literal? xsl line = some mark) :
    mark.indent = line.takeWhile isBlank ∧ (∀ c ∈ mark.name, IsNameChar c) ∧
      Opens line mark.name := by
  unfold literal? at h
  split at h
  · rename_i s hs
    split at h
    · exact absurd h (by simp)
    · obtain ⟨⟨name, rest⟩, hname, hends⟩ := Option.bind_eq_some_iff.mp h
      obtain ⟨rfl, hchars⟩ := literalName?_eq_some hname
      dsimp only at hends
      split at hends
      · rename_i hrest
        obtain rfl := Option.some.inj hends
        refine ⟨rfl, hchars, line.takeWhile isBlank, rest, ?_,
          fun c hc => List.mem_takeWhile_imp hc, fun c hc => (hchars c hc).endsName, hrest⟩
        rw [← hs, List.takeWhile_append_dropWhile]
      · exact absurd hends (by simp)
  · exact absurd h (by simp)

/-! ## The lines in their order -/

/-- The scan of the lines from a state on. -/
def scanFrom (xsl : List Char) (state : ScanState) :
    List (List Char) → List (List Char × Option Literal)
  | [] => []
  | line :: ls => (line, (scanLine xsl state line).1) :: scanFrom xsl (scanLine xsl state line).2 ls

/-- The scan of the lines goes on from one to the next. -/
theorem scanLines_eq_scanFrom (xsl : List Char) (ls : List (List Char)) :
    scanLines xsl ls = scanFrom xsl ⟨0, false⟩ ls := by
  -- What is found stands in reverse in front of what is still to be found.
  have hfold : ∀ state found, (ls.foldl
      (fun (acc : ScanState × List (List Char × Option Literal)) line =>
        ((scanLine xsl acc.1 line).2, (line, (scanLine xsl acc.1 line).1) :: acc.2))
      (state, found)).2.reverse = found.reverse ++ scanFrom xsl state ls := by
    induction ls with
    | nil => intro state found; simp [scanFrom]
    | cons line ls ih =>
      intro state found
      rw [List.foldl_cons, ih, scanFrom, List.reverse_cons, List.append_assoc]
      rfl
  exact hfold ⟨0, false⟩ []

/-- The scan keeps the lines. -/
theorem map_fst_scanLines (xsl : List Char) (ls : List (List Char)) :
    (scanLines xsl ls).map Prod.fst = ls := by
  rw [scanLines_eq_scanFrom]
  generalize (⟨0, false⟩ : ScanState) = state
  induction ls generalizing state with
  | nil => rfl
  | cons line ls ih => rw [scanFrom, List.map_cons, ih]

/-- A line before which a marker goes opens its literal element, behind the blanks of its indent. -/
theorem literal_of_mem_scanLines {xsl : List Char} {ls : List (List Char)}
    {s : List Char × Option Literal} (h : s ∈ scanLines xsl ls) {mark : Literal}
    (hmark : mark ∈ s.2) :
    mark.indent = s.1.takeWhile isBlank ∧ (∀ c ∈ mark.name, IsNameChar c) ∧
      Opens s.1 mark.name := by
  rw [scanLines_eq_scanFrom] at h
  generalize (⟨0, false⟩ : ScanState) = state at h
  induction ls generalizing state with
  | nil => simp [scanFrom] at h
  | cons line ls ih =>
    rw [scanFrom, List.mem_cons] at h
    rcases h with rfl | h
    -- Only outside a comment, and inside a body, does the scan look for an element.
    · unfold scanLine at hmark
      dsimp only at hmark
      split at hmark
      · exact absurd hmark (by simp)
      · split at hmark
        · exact absurd hmark (by simp)
        · exact literal?_eq_some hmark
    · exact ih _ h

end StylesheetTrace.Stylesheet
