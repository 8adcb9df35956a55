import StylesheetTrace.Proofs.Markup.Tag
import StylesheetTrace.Proofs.Report.WrittenAttribute

/-!
# Blocks at the tags of a report

A block is read at a start tag with its name when the tag does not close its element at once and the
end tag that repeats the name follows (`block?_element`). It is not read at an end tag. At any other
start tag it is not read either, unless a prefix begins with the name of the block, a word ends
there, and the end tag of the bare name follows (`block?_startTag_eq_none`): such a prefix is taken
for the name. Without the end tags of its name a stretch of a report holds no block at all
(`silent_block?_of_closing`).
-/

namespace StylesheetTrace.Report

open StylesheetTrace.Text StylesheetTrace.Entity StylesheetTrace.Markup

/-! ## Names -/

/-- The local name of a block. -/
def BlockKind.localName : BlockKind → LocalName
  | failedAssert => ⟨'f', "ailed-assert".toList, by decide, List.all_eq_true.mp (by decide)⟩
  | successfulReport => ⟨'s', "uccessful-report".toList, by decide, List.all_eq_true.mp (by decide)⟩

/-- The local name of the element with the message. -/
def textName : LocalName := ⟨'t', "ext".toList, by decide, List.all_eq_true.mp (by decide)⟩

/-- The name that is looked for is that of the block. -/
theorem BlockKind.tagName_toList (kind : BlockKind) :
    kind.tagName.toList = kind.localName.chars := by
  cases kind <;> rfl

/-- The names of the two kinds differ in their first characters. -/
theorem BlockKind.first_ne {k l : BlockKind} (h : k ≠ l) :
    k.localName.first ≠ l.localName.first := by
  revert h
  cases k <;> cases l <;> decide

/-- The name of a block and that of the element with the message differ in their first
characters. -/
theorem BlockKind.first_ne_text (kind : BlockKind) : kind.localName.first ≠ textName.first := by
  cases kind <;> decide

/-! ## Elements -/

section

variable {β : Type} {read : List Char → List Char → Option β} {q : QName}

/-- Behind a qualified name an element is read with the prefix, if there is one, or else without. -/
theorem prefixedElement?_qname (q : QName) (n : LocalName) {rest : List Char}
    (hrest : endsName rest = true) :
    prefixedElement? read n.chars (q.chars ++ rest) =
      (q.qualifier.bind fun p =>
        (after? n.chars (q.name.chars ++ rest)).bind (read (p.chars ++ ':' :: n.chars))).or
      ((after? n.chars (q.chars ++ rest)).bind (read n.chars)) := by
  obtain ⟨qualifier, name⟩ := q
  unfold prefixedElement?
  rw [afterPrefix?_qname _ hrest]
  cases qualifier with
  | none => rfl
  | some p =>
    have htake : (p.chars ++ ':' :: (name.chars ++ rest)).takeWhile isPrefixChar = p.chars := by
      rw [takeWhile_append_of_head (by simp; decide), List.takeWhile_eq_self_iff]
      exact p.chars_ok
    rw [QName.chars_some, htake]
    dsimp only [Option.map_some, Option.bind_some]
    cases (after? n.chars (name.chars ++ rest)).bind (read (p.chars ++ ':' :: n.chars)) <;> rfl

/-- An element is read behind its qualified name. -/
theorem prefixedElement?_append {rest : List Char} {b : β} (hrest : endsName rest = true)
    (h : read q.chars rest = some b) :
    prefixedElement? read q.name.chars (q.chars ++ rest) = some b := by
  rw [prefixedElement?_qname q q.name hrest, after?_append]
  obtain ⟨qualifier, name⟩ := q
  cases qualifier with
  | none =>
    have hbare : read name.chars rest = some b := h
    simp only [QName.chars, QName.front, List.nil_append, Option.bind_none, Option.none_or,
      after?_append, Option.bind_some, hbare]
  | some p =>
    have hwhole : read (p.chars ++ ':' :: name.chars) rest = some b := by
      simpa [QName.chars, QName.front] using h
    rw [Option.bind_some, Option.bind_some, hwhole, Option.some_or]

/-- No element is read behind a qualified name, if none is read behind it as it stands, should it
have the local name, and none where the bare name begins it. -/
theorem prefixedElement?_eq_none {n : LocalName} (hn : q.name = n ∨ n.first ≠ q.name.first)
    {rest : List Char} (hrest : endsName rest = true)
    (hwhole : q.name = n → read q.chars rest = none)
    (hbare : ∀ u, q.chars ++ rest = n.chars ++ u → read n.chars u = none) :
    prefixedElement? read n.chars (q.chars ++ rest) = none := by
  rw [prefixedElement?_qname q n hrest, Option.or_eq_none_iff]
  constructor
  · rw [Option.bind_eq_none_iff]
    intro p hp
    rcases hn with rfl | hfirst
    · have hchars : p.chars ++ ':' :: q.name.chars = q.chars := by
        simp [QName.chars, QName.front, hp]
      rw [after?_append, Option.bind_some, hchars, hwhole rfl]
    · have hafter : after? n.chars (q.name.chars ++ rest) = none := after?_cons_of_ne hfirst _ _
      rw [hafter, Option.bind_none]
  · rw [Option.bind_eq_none_iff]
    exact fun u hu => hbare u (after?_eq_some.mp hu)

end

/-! ## Blocks -/

/-- Whether a name has ended is told by the text up to the end of the tag. -/
theorem endsName_append_cons (t s : List Char) (c : Char) :
    endsName (t ++ c :: s) = endsName (t ++ [c]) := by
  cases t <;> rfl

/-- Whether a word has ended is told by the text up to the end of the tag. -/
theorem endsWord_append_cons (t s : List Char) (c : Char) :
    endsWord (t ++ c :: s) = endsWord (t ++ [c]) := by
  cases t <;> rfl

/-- Every block begins with `<`. -/
theorem block?_of_ne (kind : BlockKind) {c : Char} (h : c ≠ '<') (s : List Char) :
    block? kind (c :: s) = none := by
  unfold block?
  split
  · rename_i heq
    exact absurd (List.cons.inj heq).1 h
  · rfl

/-- A text without `<` holds no block. -/
theorem silent_block?_of_not_mem (kind : BlockKind) {t : List Char} (h : '<' ∉ t) (s : List Char) :
    Silent (block? kind) t s :=
  silent_of_not_mem (fun _ u hc => block?_of_ne kind hc u) h s

/-- No block is read at an end tag. -/
theorem silent_block?_endTag (kind : BlockKind) (q : QName) (s : List Char) :
    Silent (block? kind) q.endTag s := by
  refine ⟨?_, silent_block?_of_not_mem kind ?_ s⟩
  · rw [List.cons_append, block?, prefixedElement?, afterPrefix?_slash (by decide)]
    cases kind <;> rfl
  · simp [q.lt_not_mem]

/-- The element with its body is read behind the name of its start tag. -/
theorem element?_append {q : QName} {t body s : List Char} (ht : '>' ∉ t)
    (hword : endsWord (t ++ ['>']) = true) (hslash : endsWithSlash t = false)
    (hbody : Silent (exactClosing? q.chars) body (q.endTag ++ s)) :
    element? q.chars (t ++ '>' :: (body ++ (q.endTag ++ s))) = some ((t, body), s) := by
  have hends : endsWord (t ++ '>' :: (body ++ (q.endTag ++ s))) = true := by
    rw [endsWord_append_cons, hword]
  have htag : q.endTag ++ s = '<' :: '/' :: (q.chars ++ '>' :: s) := by
    simp [QName.endTag]
  rw [htag] at hbody ⊢
  rw [element?, if_pos (htag ▸ hends), tagInside?_append ht]
  simp only [Option.bind_some, hslash, body?_append hbody, Option.map_some, Bool.false_eq_true,
    if_false]

/-- A block is read at its start tag when the end tag stands behind its body. -/
theorem block?_element {kind : BlockKind} {q : QName} (hname : q.name = kind.localName)
    {t body s : List Char} (ht : '>' ∉ t) (hends : endsName (t ++ ['>']) = true)
    (hword : endsWord (t ++ ['>']) = true) (hslash : endsWithSlash t = false)
    (hbody : Silent (exactClosing? q.chars) body (q.endTag ++ s)) :
    block? kind ('<' :: (q.chars ++ (t ++ '>' :: (body ++ (q.endTag ++ s))))) =
      some (⟨t, body, '<' :: (q.chars ++ (t ++ '>' :: (body ++ (q.endTag ++ s))))⟩, s) := by
  have hrest : endsName (t ++ '>' :: (body ++ (q.endTag ++ s))) = true := by
    rw [endsName_append_cons, hends]
  rw [block?, kind.tagName_toList, ← hname,
    prefixedElement?_append hrest (element?_append ht hword hslash hbody)]
  rfl

/-- No element is read behind a name when the start tag closes it at once or the end tag does not
follow. -/
theorem element?_eq_none {tag t s : List Char} (ht : '>' ∉ t)
    (h : endsWithSlash t = true ∨ Silent (exactClosing? tag) s []) :
    element? tag (t ++ '>' :: s) = none := by
  unfold element?
  split
  · rw [tagInside?_append ht, Option.bind_some]
    dsimp only
    rcases h with hslash | hclosing
    · rw [if_pos hslash]
    · rw [body?_eq_none hclosing, Option.map_none, ite_self]
  · rfl

/-- No block is read at a start tag that closes its element at once, or that neither has the name of
the block with its end tag behind it nor begins with the bare name with the end tag of that behind
it. -/
theorem block?_startTag_eq_none {kind : BlockKind} {q : QName}
    (hn : q.name = kind.localName ∨ kind.localName.first ≠ q.name.first) {t s : List Char}
    (ht : '>' ∉ t) (hends : endsName (t ++ ['>']) = true)
    (hwhole : q.name = kind.localName →
      endsWithSlash t = true ∨ Silent (exactClosing? q.chars) s [])
    (hbare : ∀ w, q.chars ++ t = kind.localName.chars ++ w → endsWord (w ++ ['>']) = true →
      endsWithSlash w = true ∨ Silent (exactClosing? kind.localName.chars) s []) :
    block? kind ('<' :: (q.chars ++ (t ++ '>' :: s))) = none := by
  have hrest : endsName (t ++ '>' :: s) = true := by
    rw [endsName_append_cons, hends]
  have hnone :
      prefixedElement? element? kind.localName.chars (q.chars ++ (t ++ '>' :: s)) = none := by
    refine prefixedElement?_eq_none hn hrest (fun h => element?_eq_none ht (hwhole h))
      fun u hu => ?_
    -- The bare name lies before the end of the tag.
    have hname : '>' ∉ kind.localName.chars := LocalName.not_mem_chars (by decide) _
    obtain ⟨w, hw, rfl⟩ := append_cons_eq_append hname ((List.append_assoc ..).trans hu)
    have hwt : '>' ∉ w := fun hmem =>
      List.not_mem_append (q.not_mem_chars (by decide) (by decide)) ht
        (hw ▸ List.mem_append_right _ hmem)
    by_cases hword : endsWord (w ++ ['>']) = true
    · exact element?_eq_none hwt (hbare w hw hword)
    · rw [element?, endsWord_append_cons, if_neg hword]
  rw [block?, kind.tagName_toList, hnone]
  rfl

/-- What is read as an element is read behind a qualified name. -/
theorem exists_of_prefixedElement? {β : Type} {read : List Char → List Char → Option β}
    {n : LocalName} {s : List Char} {b : β} (h : prefixedElement? read n.chars s = some b) :
    ∃ q : QName, q.name = n ∧ ∃ u, s = q.chars ++ u ∧ read q.chars u = some b := by
  have hbare : (after? n.chars s).bind (read n.chars) = some b →
      ∃ q : QName, q.name = n ∧ ∃ u, s = q.chars ++ u ∧ read q.chars u = some b := by
    intro hread
    obtain ⟨u, hu, hb⟩ := Option.bind_eq_some_iff.mp hread
    exact ⟨⟨none, n⟩, rfl, u, after?_eq_some.mp hu, hb⟩
  unfold prefixedElement? at h
  split at h
  · exact hbare h
  · rename_i rest hrest
    split at h
    · rename_i found hfound
      obtain rfl := Option.some.inj h
      obtain ⟨u, hu, hread⟩ := Option.bind_eq_some_iff.mp hfound
      obtain ⟨hs, hne⟩ := eq_of_afterPrefix? hrest
      refine ⟨⟨some ⟨_, hne, fun c hc => List.mem_takeWhile_imp hc⟩, n⟩, rfl, u, ?_, ?_⟩
      · rw [QName.chars_some, ← after?_eq_some.mp hu]
        exact hs
      · simpa [QName.chars, QName.front] using hread
    · exact hbare h

/-- Behind the start tag of an element that is read its body is read, and what is left stands behind
that. -/
theorem body?_of_element? {tag s rest : List Char} {x : List Char × List Char}
    (h : element? tag s = some (x, rest)) :
    ∃ u, u <:+ s ∧ (body? tag u).isSome = true ∧ rest <:+ u := by
  unfold element? at h
  split at h
  · obtain ⟨⟨inside, u⟩, hinside, hread⟩ := Option.bind_eq_some_iff.mp h
    dsimp only at hread
    split at hread
    · exact absurd hread (by simp)
    · obtain ⟨⟨body, after⟩, hbody, heq⟩ := Option.map_eq_some_iff.mp hread
      obtain ⟨-, rfl⟩ := Prod.mk.inj heq
      exact ⟨u, suffix_of_tagInside? hinside, by rw [hbody]; rfl, suffix_of_body? hbody⟩
  · exact absurd h (by simp)

/-- A block that is read has a qualified name with the local name of its kind, and the end tag of
that name stands behind it. -/
theorem exists_of_block? {kind : BlockKind} {s rest : List Char} {b : Block}
    (h : block? kind s = some (b, rest)) :
    ∃ q : QName, q.name = kind.localName ∧ ∃ t, s = '<' :: (q.chars ++ t) ∧
      ∃ u, u <:+ t ∧ (body? q.chars u).isSome = true ∧ rest <:+ u := by
  unfold block? at h
  split at h
  · rename_i v
    obtain ⟨⟨x, after⟩, hread, heq⟩ := Option.map_eq_some_iff.mp h
    obtain ⟨-, rfl⟩ := Prod.mk.inj heq
    rw [kind.tagName_toList] at hread
    obtain ⟨q, hq, t, rfl, helement⟩ := exists_of_prefixedElement? hread
    obtain ⟨u, hu, hbody, hafter⟩ := body?_of_element? helement
    exact ⟨q, hq, t, rfl, u, hu, hbody, hafter⟩
  · exact absurd h (by simp)

/-- A block takes at least one character. -/
theorem reduces_block (kind : BlockKind) : Reduces (block? kind) := by
  refine reduces_of_suffix fun s b rest h => ?_
  obtain ⟨q, -, t, ht, u, hu, -, hrest⟩ := exists_of_block? h
  exact ⟨'<', q.chars ++ t, ht, (hrest.trans hu).trans (List.suffix_append _ _)⟩

/-- A stretch of text without end tags of its name holds no block. -/
theorem silent_block?_of_closing {kind : BlockKind} {s : List Char}
    (h : ∀ q : QName, q.name = kind.localName → Silent (exactClosing? q.chars) s []) :
    Silent (block? kind) s [] := by
  refine silent_of_forall_suffix fun u hu => ?_
  rw [Option.eq_none_iff_forall_not_mem]
  rintro ⟨b, rest⟩ hb
  obtain ⟨q, hq, t, rfl, v, hv, hbody, -⟩ := exists_of_block? hb
  have hsuffix : v <:+ s := by
    refine List.IsSuffix.trans ?_ hu
    exact (hv.trans (List.suffix_append _ _)).trans (List.suffix_cons '<' _)
  rw [body?_eq_none ((h q hq).of_suffix hsuffix)] at hbody
  exact Bool.false_ne_true hbody

/-! ## Text between blocks -/

/-- The text ends or goes on with a tag. -/
def AtTag (s : List Char) : Prop := ∀ c ∈ s.head?, c = '<'

/-- A word that stands at the head of a text and the tag behind it lies in the text. -/
theorem isInfix_of_append_eq {w t s v : List Char} (hs : AtTag s) (hw : '<' ∉ w)
    (h : t ++ s = w ++ v) : w <:+: t := by
  cases s with
  | nil =>
    rw [List.append_nil] at h
    exact ⟨[], v, by simpa using h.symm⟩
  | cons c s =>
    obtain rfl : c = '<' := hs c rfl
    obtain ⟨b, rfl, -⟩ := append_cons_eq_append hw h
    exact (List.prefix_append w b).isInfix

/-- Text in which the name of a block does not occur holds no block. -/
theorem silent_block?_of_unnamed {kind : BlockKind} {t s : List Char} (hs : AtTag s)
    (ht : ¬ kind.localName.chars <:+: t) : Silent (block? kind) t s := by
  induction t with
  | nil => trivial
  | cons c t ih =>
    refine ⟨?_, ih fun h => ht (h.trans (List.suffix_cons c t).isInfix)⟩
    rw [Option.eq_none_iff_forall_not_mem]
    rintro ⟨b, rest⟩ hb
    obtain ⟨q, hq, u, hu, -⟩ := exists_of_block? hb
    have hchars : q.chars <:+: t := isInfix_of_append_eq hs q.lt_not_mem (List.cons.inj hu).2
    have hname : kind.localName.chars <:+: q.chars := hq ▸ (List.suffix_append _ _).isInfix
    exact ht ((hname.trans hchars).trans (List.suffix_cons c t).isInfix)

/-- Text in which the name of a block does not occur holds no end tag of that name. -/
theorem silent_exactClosing_of_unnamed {n : LocalName} {t s : List Char} (hs : AtTag s)
    (ht : ¬ n.chars <:+: t) : Silent (exactClosing? n.chars) t s := by
  induction t with
  | nil => trivial
  | cons c t ih =>
    refine ⟨?_, ih fun h => ht (h.trans (List.suffix_cons c t).isInfix)⟩
    rw [Option.eq_none_iff_forall_not_mem]
    rintro ⟨b, rest⟩ hb
    obtain ⟨v, hv, -⟩ := exists_of_exactClosing? hb
    have hslash : '<' ∉ '/' :: n.chars :=
      List.not_mem_cons_of_ne_of_not_mem (by decide) (n.not_mem_chars (by decide))
    have hchars : '/' :: n.chars <:+: t := isInfix_of_append_eq hs hslash (List.cons.inj hv).2
    exact ht (((List.suffix_cons '/' n.chars).isInfix.trans hchars).trans
      (List.suffix_cons c t).isInfix)

end StylesheetTrace.Report
