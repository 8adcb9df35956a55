import StylesheetTrace.Location.Path
import StylesheetTrace.Proofs.Entity.Reference
import StylesheetTrace.Proofs.Markup.Tree
import StylesheetTrace.Proofs.Text.Blank
import StylesheetTrace.Proofs.Text.Lines
import StylesheetTrace.Proofs.Text.Number

/-!
# Location paths read back

A path is written as the validators report it, each step behind a slash with its index in brackets,
and the steps that are read from that text are those of the path (`steps_pathText`). The text holds
none of the characters with which a reference, a qualifier on a namespace, an attribute step or a
node test is told. Any other text is read as a path too, unless a number in it is too long
(`hasResult_steps`).
-/

namespace StylesheetTrace.Location

open StylesheetTrace.Text StylesheetTrace.Entity StylesheetTrace.Markup

/-- The characters of a step: its local name and its index in brackets. -/
def stepChars (s : PathStep) : List Char :=
  s.name.chars ++ '[' :: (decimal s.index ++ [']'])

/-- The characters of a path: each of its steps behind a slash. -/
def pathChars (path : List PathStep) : List Char :=
  path.flatMap fun s => '/' :: stepChars s

/-- A path as a text. -/
def pathText (path : List PathStep) : String := String.ofList (pathChars path)

/-- The step that is searched for. -/
def stepOf (s : PathStep) : Step := ⟨s.name.text, s.index⟩

/-- The characters of a step are those of a prefix and brackets. -/
theorem mem_stepChars {s : PathStep} {c : Char} (h : c ∈ stepChars s) :
    isPrefixChar c = true ∨ c = '[' ∨ c = ']' := by
  rcases List.mem_append.mp h with h | h
  · exact Or.inl (LocalName.isPrefixChar_of_mem h)
  rcases List.mem_cons.mp h with h | h
  · exact Or.inr (Or.inl h)
  rcases List.mem_append.mp h with h | h
  · exact Or.inl (isPrefixChar_of_isDigit (isDigit_of_mem_decimal h))
  · exact Or.inr (Or.inr (List.mem_singleton.mp h))

/-- Any other character stands in no step. -/
theorem not_mem_stepChars {d : Char} (hd : isPrefixChar d = false) (hopen : d ≠ '[')
    (hclose : d ≠ ']') (s : PathStep) : d ∉ stepChars s := by
  intro h
  rcases mem_stepChars h with h | h | h
  · rw [hd] at h
    exact Bool.false_ne_true h
  · exact hopen h
  · exact hclose h

/-- Any other character but the slash stands in no path. -/
theorem not_mem_pathChars {d : Char} (hd : isPrefixChar d = false) (hopen : d ≠ '[')
    (hclose : d ≠ ']') (hslash : d ≠ '/') (path : List PathStep) : d ∉ pathChars path := by
  intro h
  obtain ⟨s, -, hs⟩ := List.mem_flatMap.mp h
  rcases List.mem_cons.mp hs with hs | hs
  · exact hslash hs
  · exact not_mem_stepChars hd hopen hclose s hs

/-! ## Qualifiers -/

/-- A predicate on the namespace holds a parenthesis. -/
theorem namespacePredicate?_eq_none {s : List Char} (h : '(' ∉ s) :
    namespacePredicate? s = none := by
  unfold namespacePredicate?
  split
  · rename_i t
    rw [Option.bind_eq_bind, Option.bind_eq_none_iff]
    intro u hu
    have hmem : '(' ∈ t.dropWhile isBlank := by
      rw [after?_eq_some.mp hu]
      exact List.mem_append_left u (by decide)
    exact absurd (List.mem_cons_of_mem _ ((List.dropWhile_suffix isBlank).subset hmem)) h
  · rfl

/-- A namespace in braces holds a brace. -/
theorem namespaceBraces?_eq_none {s : List Char} (h : '\x7b' ∉ s) : namespaceBraces? s = none := by
  unfold namespaceBraces?
  split
  · simp at h
  · rfl

/-- A path holds no reference and no qualifier on a namespace. -/
theorem unqualified_pathChars (path : List PathStep) :
    unqualified (pathChars path) = .ok (pathChars path) := by
  have hamp : '&' ∉ pathChars path :=
    not_mem_pathChars (by decide) (by decide) (by decide) (by decide) path
  have hpredicate : erase namespacePredicate? (pathChars path) = pathChars path :=
    erase_of_silent <| silent_of_forall_suffix fun _ hu => namespacePredicate?_eq_none fun h =>
      not_mem_pathChars (by decide) (by decide) (by decide) (by decide) path (hu.subset h)
  have hbraces : erase namespaceBraces? (pathChars path) = pathChars path :=
    erase_of_silent <| silent_of_forall_suffix fun _ hu => namespaceBraces?_eq_none fun h =>
      not_mem_pathChars (by decide) (by decide) (by decide) (by decide) path (hu.subset h)
  rw [unqualified, unescape, if_neg (by simpa using hamp)]
  simp only [Except.map, hpredicate, hbraces]

/-! ## Steps -/

/-- The parts of a path between its slashes are its steps, behind what stands before the first. -/
theorem splitOn_pathChars (path : List PathStep) {t : List Char} (ht : '/' ∉ t) :
    splitOn '/' (t ++ pathChars path) = t :: path.map stepChars := by
  induction path generalizing t with
  | nil =>
    rw [pathChars, List.flatMap_nil, List.append_nil]
    exact splitOn_of_not_mem ht
  | cons s path ih =>
    have hs : '/' ∉ stepChars s := not_mem_stepChars (by decide) (by decide) (by decide) s
    rw [pathChars, List.flatMap_cons, List.cons_append, splitOn_append_cons ht, ← pathChars, ih hs]
    rfl

/-- A step holds no blanks. -/
theorem strip_stepChars (s : PathStep) : strip (stepChars s) = stepChars s := by
  refine strip_of_forall_not fun c hc => ?_
  rcases mem_stepChars hc with h | rfl | rfl
  · exact isBlank_eq_false_of_isPrefixChar h
  · decide
  · decide

/-- An index in brackets is read as it stands. -/
theorem indexAfter_decimal {k : Nat} (h : k < 10 ^ TooLong.limit) :
    indexAfter ('[' :: (decimal k ++ [']'])) = .ok (max k 1) := by
  have hhead : ∀ c ∈ [']'].head?, isDigit c = false := head?_cons_eq_false (by decide) []
  have hdigits : indexDigits? ('[' :: (decimal k ++ [']'])) = some (decimal k) := by
    have hempty : (decimal k).isEmpty = false := by simp [decimal_ne_nil]
    rw [indexDigits?, dropWhile_decimal k hhead, takeWhile_decimal k hhead, hempty]
    rfl
  rw [indexAfter, hdigits]
  simp only [readDigits_decimal h, Except.map]

/-- A step is read from its local name, before which a prefix may stand, and the index behind it. -/
theorem stepOf?_append {lead tail : List Char} {name : LocalName} {k : Nat}
    (hlead : lead = [] ∨ ∃ p, lead = p ++ [':'] ∧ p ≠ [] ∧ ∀ c ∈ p, isStepPrefixChar c = true)
    (htail : ∀ c ∈ tail.head?, isStepPrefixChar c = false ∧ c ≠ ':')
    (hparen : '(' ∉ lead ++ (name.chars ++ tail))
    (hat : (lead ++ (name.chars ++ tail)).head? ≠ some '@') (hindex : indexAfter tail = .ok k) :
    stepOf? (lead ++ (name.chars ++ tail)) = .ok (some ⟨name.text, k⟩) := by
  have hclass : ∀ c, isPrefixChar c = true → isStepPrefixChar c = true := fun c hc => by
    rw [isStepPrefixChar, hc, Bool.true_or]
  have hname : name? (name.chars ++ tail) = some (name.chars, tail) :=
    name?_append name fun c hc => eq_false_of_ne_true fun h =>
      Bool.false_ne_true ((htail c hc).1.symm.trans (hclass c h))
  have hfound : ((afterPrefix? isStepPrefixChar (lead ++ (name.chars ++ tail))).bind name?).or
      (name? (lead ++ (name.chars ++ tail))) = some (name.chars, tail) := by
    rcases hlead with rfl | ⟨p, rfl, hne, hp⟩
    · -- Behind the name stands no colon that would make it a prefix.
      rw [List.nil_append, hname, afterPrefix?_eq_none
        (fun c hc => hclass c (LocalName.isPrefixChar_of_mem hc)) htail]
      rfl
    · rw [List.append_assoc, List.singleton_append,
        afterPrefix?_append (by decide) hne hp, Option.bind_some, hname]
      rfl
  have hempty : (lead ++ (name.chars ++ tail)).isEmpty = false := by simp [LocalName.chars]
  have hplain : (lead ++ (name.chars ++ tail)).contains '(' = false := by
    rw [← Bool.not_eq_true, List.contains_iff_mem]
    exact hparen
  have hhead : ((lead ++ (name.chars ++ tail)).head? == some '@') = false :=
    beq_eq_false_iff_ne.mpr hat
  rw [stepOf?, hempty, hhead, hplain, hfound]
  simp only [Bool.or_self, Bool.false_eq_true, if_false, hindex, Except.map]
  rfl

/-- The step that a part of a path holds is read from it. -/
theorem stepOf?_stepChars {s : PathStep} (hpos : 1 ≤ s.index) (h : s.index < 10 ^ TooLong.limit) :
    stepOf? (stepChars s) = .ok (some (stepOf s)) := by
  have hat : (stepChars s).head? ≠ some '@' := by
    intro hhead
    have hfirst : s.name.first = '@' := by simpa [stepChars, LocalName.chars] using hhead
    exact absurd (hfirst ▸ s.name.first_ok) (by decide)
  have hbracket : ∀ c ∈ ('[' :: (decimal s.index ++ [']'])).head?,
      isStepPrefixChar c = false ∧ c ≠ ':' := by
    intro c hc
    obtain rfl : '[' = c := Option.some.inj hc
    decide
  have hindex : indexAfter ('[' :: (decimal s.index ++ [']'])) = .ok s.index := by
    rw [indexAfter_decimal h, Nat.max_eq_left hpos]
  exact @stepOf?_append [] _ s.name s.index (Or.inl rfl) hbracket
    (not_mem_stepChars (by decide) (by decide) (by decide) s) hat hindex

/-- The steps of a path are read back from its text. -/
theorem steps_pathText {path : List PathStep} (hpos : ∀ s ∈ path, 1 ≤ s.index)
    (h : ∀ s ∈ path, s.index < 10 ^ TooLong.limit) :
    steps (pathText path) = .ok (path.map stepOf) := by
  have hsplit : splitOn '/' (pathChars path) = [] :: path.map stepChars :=
    splitOn_pathChars path (t := []) List.not_mem_nil
  have hstrip : (path.map stepChars).map strip = path.map stepChars := by
    rw [List.map_map]
    exact List.map_congr_left fun s _ => strip_stepChars s
  have hparts : (path.map stepChars).mapM stepOf? = .ok (path.map (some ∘ stepOf)) := by
    rw [List.mapM_map]
    exact mapM_eq_ok fun s hs => stepOf?_stepChars (hpos s hs) (h s hs)
  -- The part before the first slash is empty and yields no step.
  have hroot : stepOf? (strip []) = .ok none := rfl
  unfold steps
  rw [pathText, String.toList_ofList, unqualified_pathChars]
  simp only [bind, Except.bind, hsplit, List.map_cons, hstrip, List.mapM_cons, hroot, hparts]
  simp [pure, Except.pure, List.filterMap_map, Function.comp_def]

/-! ## Any text -/

/-- The digits of the index behind the step that a part of a path holds. -/
def indexRow? (part : List Char) : Option (List Char) :=
  if part.isEmpty || part.head? == some '@' || part.contains '(' then none
  else
    (((afterPrefix? isStepPrefixChar part).bind name?).or (name? part)).bind fun found =>
      indexDigits? found.2

/-- The text has a number that is too long for a path: in a reference or, once the references are
replaced, in the index of a step. -/
def LongPath (path : String) : Prop :=
  LongReference path.toList ∨
    ∃ s, unqualified path.toList = .ok s ∧
      ∃ part ∈ splitOn '/' s, ∃ ds ∈ indexRow? (strip part), TooLong.limit < ds.length

/-- An index is refused when it is too long. -/
theorem hasResult_indexAfter {s : List Char} :
    HasResult (indexAfter s) ↔ ∀ ds ∈ indexDigits? s, ds.length ≤ TooLong.limit := by
  unfold indexAfter
  split
  · rename_i ds hdigits
    rw [hasResult_map, hasResult_readDigits, hdigits]
    simp
  · rename_i hnone
    refine iff_of_true ⟨1, rfl⟩ ?_
    rw [hnone]
    simp

/-- A part of a path is refused when the index of its step is too long. -/
theorem hasResult_stepOf? {part : List Char} :
    HasResult (stepOf? part) ↔ ∀ ds ∈ indexRow? part, ds.length ≤ TooLong.limit := by
  unfold stepOf? indexRow?
  split
  · exact iff_of_true ⟨none, rfl⟩ (by simp)
  · split
    · rename_i name rest hname
      rw [hasResult_map, hasResult_indexAfter, hname, Option.bind_some]
    · rename_i hname
      rw [hname]
      exact iff_of_true ⟨none, rfl⟩ (by simp)

/-- Any text is read as a path unless a number in it is too long. -/
theorem hasResult_steps {path : String} : HasResult (steps path) ↔ ¬ LongPath path := by
  have hsteps : HasResult (steps path) ↔
      ∃ s, unqualified path.toList = .ok s ∧
        ∀ part ∈ splitOn '/' s, ∀ ds ∈ indexRow? (strip part), ds.length ≤ TooLong.limit := by
    unfold steps
    rw [hasResult_bind]
    refine exists_congr fun s => and_congr_right fun _ => ?_
    rw [hasResult_bind_pure, hasResult_mapM, List.forall_mem_map]
    exact forall₂_congr fun part _ => hasResult_stepOf?
  have hunqualified : HasResult (unqualified path.toList) ↔ ¬ LongReference path.toList := by
    rw [unqualified, hasResult_map, hasResult_unescape]
  rw [hsteps]
  constructor
  · rintro ⟨s, hs, hshort⟩ (hlong | ⟨s', hs', part, hpart, ds, hds, hlong⟩)
    · exact hunqualified.mp ⟨s, hs⟩ hlong
    · obtain rfl := Except.ok.inj (hs.symm.trans hs')
      exact absurd (hshort part hpart ds hds) (Nat.not_le.mpr hlong)
  · intro hshort
    obtain ⟨s, hs⟩ := hunqualified.mpr fun hlong => hshort (Or.inl hlong)
    refine ⟨s, hs, fun part hpart ds hds => Nat.not_lt.mp fun hlong => hshort ?_⟩
    exact Or.inr ⟨s, hs, part, hpart, ds, hds, hlong⟩

end StylesheetTrace.Location
