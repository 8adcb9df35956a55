import StylesheetTrace.Entity.Reference
import StylesheetTrace.Proofs.Text.LineEnds
import StylesheetTrace.Proofs.Text.Number

/-!
# Escaped texts read back

An escaped text is read back as it was, by the references of the HTML standard (`unescape_escape`,
`unescape_escapeQuoted`) and by the predefined entities of XML alone (`unescapeXml_escape`). It
holds no angle bracket, and no quote when quotes are escaped too. A text is refused only for a
decimal reference that is too long, wherever that stands (`hasResult_unescape`).
-/

namespace StylesheetTrace.Entity

open StylesheetTrace.Text

/-! ## References -/

/-- No reference is read where there is no ampersand. -/
theorem reference?_of_ne {c : Char} (h : c ≠ '&') (s : List Char) : reference? (c :: s) = none := by
  unfold reference?
  split
  · rename_i heq
    exact absurd (List.cons.inj heq).1 h
  · rename_i heq
    exact absurd (List.cons.inj heq).1 h
  · rfl

/-- A semicolon at the head is all that is dropped. -/
theorem eq_append_dropSemicolon (s : List Char) : ∃ t, s = t ++ dropSemicolon s ∧ '&' ∉ t := by
  unfold dropSemicolon
  split
  · exact ⟨[';'], rfl, by decide⟩
  · exact ⟨[], rfl, List.not_mem_nil⟩

/-- A reference begins with the only ampersand in it. -/
theorem eq_cons_of_reference? {s rest : List Char} {a : Except TooLong (List Char)}
    (h : reference? s = some (a, rest)) : ∃ t, s = '&' :: (t ++ rest) ∧ '&' ∉ t := by
  unfold reference? at h
  split at h
  -- By number, in decimal or in hexadecimal digits.
  · rename_i t
    dsimp only at h
    split at h
    · obtain ⟨-, rfl⟩ := Prod.mk.inj (Option.some.inj h)
      obtain ⟨u, hu, hamp⟩ := eq_append_dropSemicolon (t.dropWhile Char.isDigit)
      refine ⟨'#' :: (t.takeWhile Char.isDigit ++ u), ?_, ?_⟩
      · rw [List.cons_append, List.append_assoc, ← hu, List.takeWhile_append_dropWhile]
      · have hdigits : '&' ∉ t.takeWhile Char.isDigit := not_mem_takeWhile (by decide) t
        simp [hdigits, hamp]
    · split at h
      · rename_i x v _
        split at h
        · rename_i hx
          obtain ⟨-, rfl⟩ := Prod.mk.inj (Option.some.inj h)
          generalize hhex : (v.takeWhile fun c => (hexValue? c).isSome) = hs at hx ⊢
          have hv : hs ++ v.drop hs.length = v :=
            List.prefix_iff_eq_append.mp (hhex ▸ List.takeWhile_prefix _)
          obtain ⟨u, hu, hamp⟩ := eq_append_dropSemicolon (v.drop hs.length)
          refine ⟨'#' :: x :: (hs ++ u), ?_, ?_⟩
          · rw [List.cons_append, List.cons_append, List.append_assoc, ← hu, hv]
          · have hletter : x ≠ '&' := by
              rintro rfl
              simp at hx
            have hdigits : '&' ∉ hs := hhex ▸ not_mem_takeWhile (by decide) v
            simp [hletter.symm, hdigits, hamp]
        · exact absurd h (by simp)
      · exact absurd h (by simp)
  -- By name, with a semicolon or without.
  · rename_i t _
    dsimp only at h
    generalize hn : (t.take maxName).takeWhile isNameChar = name at h
    have ht : name ++ t.drop name.length = t :=
      List.prefix_iff_eq_append.mp (hn ▸ (List.takeWhile_prefix _).trans (List.take_prefix _ _))
    have hname : '&' ∉ name := hn ▸ not_mem_takeWhile (by decide) _
    split at h
    · exact absurd h (by simp)
    · split at h
      · rename_i u heq
        obtain ⟨-, rfl⟩ := Prod.mk.inj (Option.some.inj h)
        refine ⟨name ++ [';'], ?_, ?_⟩
        · rw [List.append_assoc, List.singleton_append, ← heq, ht]
        · simp [hname]
      · obtain ⟨-, rfl⟩ := Prod.mk.inj (Option.some.inj h)
        exact ⟨name, by rw [ht], hname⟩
  · exact absurd h (by simp)

/-- A reference takes at least one character. -/
theorem reduces_reference : Reduces reference? :=
  reduces_of_suffix fun s a rest h => by
    obtain ⟨t, hs, -⟩ := eq_cons_of_reference? h
    exact ⟨'&', t ++ rest, hs, List.suffix_append t rest⟩

/-- A text with its references replaced is that of its pieces, one behind the other. -/
theorem unescape_eq (s : List Char) :
    unescape s = ((pieces reference? s).mapM pieceText).map List.flatten := by
  unfold unescape
  split
  · rfl
  -- Without an ampersand the text is not scanned; a scan would find its characters.
  · rename_i h
    have hsilent : Silent reference? s [] :=
      silent_of_not_mem (fun c t hc => reference?_of_ne hc t) (by simpa using h) []
    have hpieces := pieces_append_of_silent hsilent
    rw [List.append_nil, pieces_nil, List.append_nil] at hpieces
    have hplain : (s.map Piece.plain).mapM pieceText = .ok (s.map fun c => [c]) := by
      rw [List.mapM_map]
      exact mapM_eq_ok fun c _ => rfl
    rw [hpieces, hplain, Except.map, ← List.flatMap_def, List.flatMap_singleton']

/-- A text holds a decimal reference that is too long. -/
def LongReference (s : List Char) : Prop :=
  ∃ t, '&' :: '#' :: t <:+ s ∧ TooLong.limit < (t.takeWhile Char.isDigit).length

/-- Only a decimal number makes a reference that is refused. -/
theorem long_of_reference? {s rest : List Char} {a : Except TooLong (List Char)}
    (h : reference? s = some (a, rest)) (ha : ¬ HasResult a) :
    ∃ t, s = '&' :: '#' :: t ∧ TooLong.limit < (t.takeWhile Char.isDigit).length := by
  unfold reference? at h
  split at h
  -- By number: only the decimal digits are counted.
  · rename_i t
    dsimp only at h
    split at h
    · obtain ⟨rfl, -⟩ := Prod.mk.inj (Option.some.inj h)
      rw [hasResult_map, hasResult_readDigits, Nat.not_le] at ha
      exact ⟨t, rfl, ha⟩
    · split at h
      · split at h
        · obtain ⟨rfl, -⟩ := Prod.mk.inj (Option.some.inj h)
          exact absurd ⟨_, rfl⟩ ha
        · exact absurd h (by simp)
      · exact absurd h (by simp)
  -- By name, with a semicolon or without.
  · dsimp only at h
    split at h
    · exact absurd h (by simp)
    · split at h
      · obtain ⟨rfl, -⟩ := Prod.mk.inj (Option.some.inj h)
        exact absurd ⟨_, rfl⟩ ha
      · obtain ⟨rfl, -⟩ := Prod.mk.inj (Option.some.inj h)
        exact absurd ⟨_, rfl⟩ ha
  · exact absurd h (by simp)

/-- The references of a text are replaced unless one of them is too long. -/
theorem hasResult_unescape {s : List Char} : HasResult (unescape s) ↔ ¬ LongReference s := by
  have hforms : HasResult (unescape s) ↔ ∀ a ∈ collect reference? s, HasResult a := by
    rw [unescape_eq, hasResult_map, hasResult_mapM]
    constructor
    · intro hall a ha
      obtain ⟨p, hp, hform⟩ := List.mem_filterMap.mp ha
      cases p with
      | plain c => exact absurd hform (by simp [Piece.form?])
      | form b =>
        obtain rfl := Option.some.inj hform
        exact hall _ hp
    · intro hall p hp
      cases p with
      | plain c => exact ⟨[c], rfl⟩
      | form a => exact hall a (List.mem_filterMap.mpr ⟨_, hp, rfl⟩)
  rw [hforms]
  constructor
  · -- No reference is passed over, so that a long one is among those that are read.
    rintro hall ⟨t, ht, hlong⟩
    have hne : (t.takeWhile Char.isDigit).isEmpty = false := by
      rw [List.isEmpty_eq_false_iff]
      exact List.ne_nil_of_length_pos (Nat.zero_lt_of_lt hlong)
    have hread : reference? ('&' :: '#' :: t) =
        some ((readDigits (t.takeWhile Char.isDigit)).map codePoint,
          dropSemicolon (t.dropWhile Char.isDigit)) := by
      simp [reference?, hne]
    have hresult := hall _ <|
      (mem_collect_iff fun _ _ _ => eq_cons_of_reference?).mpr ⟨_, _, ht, hread⟩
    rw [hasResult_map, hasResult_readDigits] at hresult
    exact absurd hresult (Nat.not_le.mpr hlong)
  · intro hshort a ha
    obtain ⟨u, rest, hu, hread⟩ := (mem_collect_iff fun _ _ _ => eq_cons_of_reference?).mp ha
    by_contra hrefused
    obtain ⟨t, rfl, hlong⟩ := long_of_reference? hread hrefused
    exact hshort ⟨t, hu, hlong⟩

/-! ## Escaping -/

/-- The character is written as it stands, or as a reference to it. -/
def Readable (write : Char → List Char) : Prop :=
  ∀ c, (write c = [c] ∧ c ≠ '&') ∨ ∀ t, reference? (write c ++ t) = some (.ok [c], t)

/-- A text is read back when each of its characters is written as it stands or as a reference. -/
theorem unescape_flatMap {write : Char → List Char} (h : Readable write) (s : List Char) :
    unescape (s.flatMap write) = .ok s := by
  have hpieces : (pieces reference? (s.flatMap write)).mapM pieceText =
      .ok (s.map fun c => [c]) := by
    induction s with
    | nil => rfl
    | cons c s ih =>
      rw [List.flatMap_cons]
      rcases h c with ⟨hc, hne⟩ | hc
      -- The character as it stands is a piece by itself, and so is the reference to it.
      · rw [hc, List.singleton_append, pieces_cons_of_none (reference?_of_ne hne _), List.mapM_cons,
          ih]
        rfl
      · rw [pieces_of_some reduces_reference (hc _), List.mapM_cons, ih]
        rfl
  rw [unescape_eq, hpieces, Except.map, ← List.flatMap_def, List.flatMap_singleton']

/-- A reference by name is read up to its semicolon. -/
theorem reference?_name {name : List Char} (hne : name ≠ [])
    (hname : ∀ c ∈ name, isNameChar c = true) (hlen : name.length < maxName) (t : List Char) :
    reference? ('&' :: (name ++ ';' :: t)) = some (.ok (nameText (name ++ [';'])), t) := by
  -- The longest run that can be a name is the name, since it is short and a semicolon follows.
  have hlong : ((name ++ ';' :: t).take maxName).takeWhile isNameChar = name := by
    obtain ⟨k, hk⟩ := Nat.exists_eq_add_of_lt hlen
    have htake : (name ++ ';' :: t).take maxName = name ++ (';' :: t.take k) := by
      rw [hk, Nat.add_assoc, List.take_length_add_append, List.take_succ_cons]
    have hstop : ∀ c ∈ (';' :: t.take k).head?, isNameChar c = false :=
      head?_cons_eq_false (by decide) _
    rw [htake, takeWhile_append_of_head hstop, List.takeWhile_eq_self_iff]
    exact hname
  have hempty : name.isEmpty = false := by simpa using hne
  unfold reference?
  split
  · -- A name does not begin like a number.
    rename_i heq
    cases name with
    | nil => exact absurd rfl hne
    | cons c name =>
      obtain rfl : c = '#' := (List.cons.inj (List.cons.inj heq).2).1
      exact absurd (hname '#' List.mem_cons_self) (by decide)
  · rename_i heq
    obtain rfl := (List.cons.inj heq).2
    simp only [hlong, hempty, List.drop_left]
    rfl
  · rename_i h
    exact absurd rfl (h _)

/-- The references of escaped characters are read. -/
theorem readable_escapeChar : Readable escapeChar := by
  have hamp : nameText "amp;".toList = ['&'] := by decide +kernel
  have hlt : nameText "lt;".toList = ['<'] := by decide +kernel
  have hgt : nameText "gt;".toList = ['>'] := by decide +kernel
  intro c
  unfold escapeChar
  split
  · refine Or.inr fun t => ?_
    rw [← hamp]
    exact @reference?_name "amp".toList (by decide) (List.all_eq_true.mp (by decide))
      (by decide) t
  · refine Or.inr fun t => ?_
    rw [← hlt]
    exact @reference?_name "lt".toList (by decide) (List.all_eq_true.mp (by decide))
      (by decide) t
  · refine Or.inr fun t => ?_
    rw [← hgt]
    exact @reference?_name "gt".toList (by decide) (List.all_eq_true.mp (by decide))
      (by decide) t
  · rename_i h _ _
    exact Or.inl ⟨rfl, h⟩

/-- The references of characters escaped for quotes are read. -/
theorem readable_escapeQuotedChar : Readable escapeQuotedChar := by
  have hquot : nameText "quot;".toList = ['"'] := by decide +kernel
  intro c
  unfold escapeQuotedChar
  split
  · refine Or.inr fun t => ?_
    rw [← hquot]
    exact @reference?_name "quot".toList (by decide) (List.all_eq_true.mp (by decide))
      (by decide) t
  · exact Or.inr fun t => rfl
  · exact readable_escapeChar c

/-- An escaped text is read back. -/
theorem unescape_escape (s : List Char) : unescape (escape s) = .ok s :=
  unescape_flatMap readable_escapeChar s

/-- A text escaped for quotes is read back. -/
theorem unescape_escapeQuoted (s : List Char) : unescape (escapeQuoted s) = .ok s :=
  unescape_flatMap readable_escapeQuotedChar s

/-- In an escaped character stands the character itself, if it is no angle bracket, or a character
of a reference. -/
theorem mem_escapeChar {c d : Char} (h : d ∈ escapeChar c) :
    (d = c ∧ c ≠ '<' ∧ c ≠ '>') ∨ d ∈ "&;ampltg".toList := by
  unfold escapeChar at h
  split at h
  · have hsubset : "&amp;".toList ⊆ "&;ampltg".toList := by decide
    exact Or.inr (hsubset h)
  · have hsubset : "&lt;".toList ⊆ "&;ampltg".toList := by decide
    exact Or.inr (hsubset h)
  · have hsubset : "&gt;".toList ⊆ "&;ampltg".toList := by decide
    exact Or.inr (hsubset h)
  · rename_i hlt hgt
    exact Or.inl ⟨List.mem_singleton.mp h, hlt, hgt⟩

/-- An escaped text holds no angle bracket. -/
theorem not_mem_escape (s : List Char) : '<' ∉ escape s ∧ '>' ∉ escape s := by
  constructor
  · intro h
    obtain ⟨c, -, hc⟩ := List.mem_flatMap.mp h
    rcases mem_escapeChar hc with ⟨hd, hlt, -⟩ | hd
    · exact hlt hd.symm
    · exact absurd hd (by decide)
  · intro h
    obtain ⟨c, -, hc⟩ := List.mem_flatMap.mp h
    rcases mem_escapeChar hc with ⟨hd, -, hgt⟩ | hd
    · exact hgt hd.symm
    · exact absurd hd (by decide)

/-- A text is escaped part by part. -/
theorem escape_append (s t : List Char) : escape (s ++ t) = escape s ++ escape t :=
  List.flatMap_append

/-- A text without characters to escape stays as it is. -/
theorem escape_eq_self {s : List Char} (h : ∀ c ∈ s, c ≠ '&' ∧ c ≠ '<' ∧ c ≠ '>') :
    escape s = s := by
  induction s with
  | nil => rfl
  | cons c s ih =>
    rw [List.forall_mem_cons] at h
    have hc : escapeChar c = [c] := by
      unfold escapeChar
      split
      · exact absurd rfl h.1.1
      · exact absurd rfl h.1.2.1
      · exact absurd rfl h.1.2.2
      · rfl
    have hs := ih h.2
    unfold escape at hs ⊢
    rw [List.flatMap_cons, hc, hs]
    rfl

/-- Escaping makes no text shorter. -/
theorem length_le_length_escape (s : List Char) : s.length ≤ (escape s).length := by
  have hchar : ∀ c, 1 ≤ (escapeChar c).length := by
    intro c
    unfold escapeChar
    split <;> simp
  induction s with
  | nil => exact Nat.zero_le _
  | cons c s ih =>
    have hc := hchar c
    unfold escape at ih ⊢
    rw [List.flatMap_cons, List.length_append, List.length_cons]
    omega

/-- Escaping neither adds nor drops a character that stands in no reference. -/
theorem count_escape {d : Char} (hd : d ∉ "&;ampltg<>".toList) (s : List Char) :
    (escape s).count d = s.count d := by
  -- Of a character that is escaped neither it nor its reference holds the other one.
  have hnone : ∀ t, t ⊆ "&;ampltg<>".toList → t.count d = 0 := fun t ht =>
    List.count_eq_zero_of_not_mem fun h => hd (ht h)
  have hchar : ∀ c, (escapeChar c).count d = [c].count d := by
    intro c
    unfold escapeChar
    split
    · rw [hnone _ (by decide), hnone _ (by decide)]
    · rw [hnone _ (by decide), hnone _ (by decide)]
    · rw [hnone _ (by decide), hnone _ (by decide)]
    · rfl
  induction s with
  | nil => rfl
  | cons c s ih =>
    unfold escape at ih ⊢
    rw [List.flatMap_cons, List.count_append, hchar, ih, ← List.count_append]
    rfl

/-- A text that its escaped form ends with is not changed by escaping. -/
theorem escape_eq_self_of_suffix {s : List Char} (h : s <:+ escape s) : escape s = s := by
  have hangle : ∀ c ∈ s, c ≠ '<' ∧ c ≠ '>' := by
    refine fun c hc => ⟨?_, ?_⟩
    · rintro rfl
      exact (not_mem_escape s).1 (h.subset hc)
    · rintro rfl
      exact (not_mem_escape s).2 (h.subset hc)
  obtain ⟨a, b, hs, ha, hb⟩ := exists_last_part (· == '&') s
  rw [forall_beq_eq_false_iff] at hb
  have hescape : escape b = b := escape_eq_self fun c hc =>
    ⟨fun hamp => hb (hamp ▸ hc), hangle c (hs ▸ List.mem_append_right a hc)⟩
  rcases ha with rfl | ⟨t, d, rfl, hd⟩
  · rw [hs, List.nil_append, hescape]
  · -- The last ampersand would stand in its own reference, which is longer.
    exfalso
    obtain rfl : d = '&' := beq_iff_eq.mp hd
    have hown : '&' :: b <:+ escape s := by
      refine List.IsSuffix.trans ⟨t, ?_⟩ h
      rw [hs, List.append_assoc, List.singleton_append]
    have hreference : '&' :: ("amp;".toList ++ b) <:+ escape s := by
      refine ⟨escape t, ?_⟩
      rw [hs, escape_append, escape_append, hescape]
      simp [escape, escapeChar]
    have hinner : '&' :: b <:+ '&' :: ("amp;".toList ++ b) :=
      List.suffix_of_suffix_length_le hown hreference (by simp)
    rcases List.suffix_cons_iff.mp hinner with heq | htail
    · exact absurd (congrArg List.length heq) (by simp)
    · have hmem : '&' ∈ "amp;".toList ++ b := htail.subset List.mem_cons_self
      rcases List.mem_append.mp hmem with hword | hmem
      · exact absurd hword (by decide)
      · exact hb hmem

/-- A text escaped for quotes holds no angle bracket and no quote. -/
theorem not_mem_escapeQuoted {d : Char} (hd : d = '<' ∨ d = '>' ∨ d = '"' ∨ d = '\'')
    (s : List Char) : d ∉ escapeQuoted s := by
  intro h
  obtain ⟨c, -, hc⟩ := List.mem_flatMap.mp h
  unfold escapeQuotedChar at hc
  split at hc
  · revert hc
    rcases hd with rfl | rfl | rfl | rfl <;> decide
  · revert hc
    rcases hd with rfl | rfl | rfl | rfl <;> decide
  -- The character is no quote, so that neither it nor the reference to it holds one.
  · rename_i hdouble hsingle
    rcases mem_escapeChar hc with ⟨rfl, hlt, hgt⟩ | hmem
    · rcases hd with h | h | h | h
      · exact hlt h
      · exact hgt h
      · exact hdouble h
      · exact hsingle h
    · revert hmem
      rcases hd with rfl | rfl | rfl | rfl <;> decide

/-! ## The predefined entities of XML -/

/-- A text with the references to the predefined entities of XML replaced. -/
def unescapeXml : List Char → List Char
  | '&' :: 'a' :: 'm' :: 'p' :: ';' :: s => '&' :: unescapeXml s
  | '&' :: 'l' :: 't' :: ';' :: s => '<' :: unescapeXml s
  | '&' :: 'g' :: 't' :: ';' :: s => '>' :: unescapeXml s
  | '&' :: 'q' :: 'u' :: 'o' :: 't' :: ';' :: s => '"' :: unescapeXml s
  | '&' :: 'a' :: 'p' :: 'o' :: 's' :: ';' :: s => '\'' :: unescapeXml s
  | c :: s => c :: unescapeXml s
  | [] => []

/-- A character other than the ampersand stands for itself. -/
theorem unescapeXml_cons {c : Char} (h : c ≠ '&') (s : List Char) :
    unescapeXml (c :: s) = c :: unescapeXml s := by
  rw [unescapeXml]
  -- The equations for the entities all begin with an ampersand.
  all_goals
    rintro _ rfl
    exact absurd rfl h

/-- An escaped character is read back before any text. -/
theorem unescapeXml_escapeChar (c : Char) (s : List Char) :
    unescapeXml (escapeChar c ++ s) = c :: unescapeXml s := by
  unfold escapeChar
  split
  · rfl
  · rfl
  · rfl
  · rename_i h _ _
    exact unescapeXml_cons h s

/-- An escaped text is read back by the predefined entities alone. -/
theorem unescapeXml_escape (s : List Char) : unescapeXml (escape s) = s := by
  induction s with
  | nil => rfl
  | cons c s ih =>
    unfold escape at ih ⊢
    rw [List.flatMap_cons, unescapeXml_escapeChar, ih]

end StylesheetTrace.Entity
