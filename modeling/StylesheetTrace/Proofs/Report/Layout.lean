import StylesheetTrace.Proofs.Report.Message

/-!
# Which blocks of a report are found

A report is blocks with text between them that does not mention them. Of a report that is cut off
the search for one kind finds the blocks of that kind that are complete, each with the inside of its
start tag and with its content (`collect_take`): a block that is read is passed over to its end, a
block of the other kind and one that is closed at once hold no block, and the block that is cut off
has no end tag.

The search goes wrong in one case. A prefix that begins with the name of the other kind, as a word,
is taken for that name, and the block is read as one of the other kind when an end tag with the bare
name stands further on. Such a block is excluded (`BlockShape.misleads`).
-/

namespace StylesheetTrace.Report

open StylesheetTrace.Text StylesheetTrace.Entity StylesheetTrace.Markup

/-! ## Blocks -/

/-- What a block holds: nothing, when its start tag closes it at once; a text without markup; or the
element with the message and the text around it. -/
inductive Content where
  | closed
  | gap (t : List Char)
  | message (before : List Char) (qualifier : Option Qualifier) (raw behind : List Char)

namespace Content

/-- The start tag closes the block at once. -/
def isClosed : Content → Bool
  | closed => true
  | _ => false

/-- The text outside of tags. -/
def plain : Content → List Char
  | closed => []
  | gap t => t
  | message before _ raw behind => before ++ (raw ++ behind)

/-- The prefix of the element with the message. -/
def qualifier? : Content → Option Qualifier
  | message _ qualifier _ _ => qualifier
  | _ => none

/-- The characters between the tags of the block. -/
def chars : Content → List Char
  | closed => []
  | gap t => t
  | message before qualifier raw behind =>
    before ++ (messageElement ⟨qualifier, textName⟩ raw ++ behind)

end Content

/-- A block, as far as it matters where it begins and ends. -/
structure BlockShape where
  /-- The kind of the block. -/
  kind : BlockKind
  /-- The prefix of its tags. -/
  qualifier : Option Qualifier
  /-- What stands in its start tag behind the name. -/
  inside : List Char
  /-- What stands behind the start tag. -/
  content : Content
  /-- No tag begins in the start tag. -/
  lt_not_mem : '<' ∉ inside
  /-- The start tag does not end before its end. -/
  gt_not_mem : '>' ∉ inside
  /-- The name of the start tag ends where the inside begins. -/
  endsName : endsName (inside ++ ['>']) = true
  /-- The kind is not the beginning of a longer word. -/
  endsWord : endsWord (inside ++ ['>']) = true
  /-- The start tag ends with a slash exactly when it closes the block. -/
  endsWithSlash : endsWithSlash inside = content.isClosed
  /-- No tag begins in the text of the content. -/
  plain : '<' ∉ content.plain

/-- The prefix begins with the name, and a word ends there. -/
def passesFor (n : LocalName) (p : Qualifier) : Bool :=
  (after? n.chars p.chars).any fun w => endsWord (w ++ [':'])

namespace BlockShape

/-- The name of the block's tags. -/
def qname (b : BlockShape) : QName := ⟨b.qualifier, b.kind.localName⟩

/-- The end tag, where the start tag does not close the block at once. -/
def endTag (b : BlockShape) : List Char := if b.content.isClosed then [] else b.qname.endTag

/-- The characters of the block. -/
def chars (b : BlockShape) : List Char :=
  '<' :: (b.qname.chars ++ (b.inside ++ ['>'])) ++ (b.content.chars ++ b.endTag)

/-- The block has an end tag, and that has no prefix. -/
def isBare (b : BlockShape) : Bool := b.qualifier.isNone && !b.content.isClosed

/-- A prefix in the block is taken for the name of a kind of block. -/
def passesFor (b : BlockShape) (kind : BlockKind) : Bool :=
  !b.content.isClosed && (b.qualifier.any (Report.passesFor kind.localName) ||
    b.content.qualifier?.any (Report.passesFor kind.localName))

/-- The end tag of the second block is taken for that of the first, in which a prefix is taken for
the name of the second. -/
def misleads (b c : BlockShape) : Bool :=
  b.kind != c.kind && b.passesFor c.kind && c.isBare

end BlockShape

/-! ## A block by itself -/

section

variable {b : BlockShape} {kind : BlockKind}

/-- The end tag of a block does not stand in its content. -/
theorem Content.silent_exactClosing {content : Content} (hplain : '<' ∉ content.plain) {q : QName}
    (hq : q.name = kind.localName) (s : List Char) :
    Silent (exactClosing? q.chars) content.chars s := by
  cases content with
  | closed => trivial
  | gap t => exact silent_exactClosing_of_not_mem hplain _ s
  | message before qualifier raw behind =>
    obtain ⟨hbefore, hraw, hbehind⟩ : '<' ∉ before ∧ '<' ∉ raw ∧ '<' ∉ behind := by
      simpa [Content.plain] using hplain
    have hne : q.chars ≠ (⟨qualifier, textName⟩ : QName).chars := by
      intro h
      have hname := hq.symm.trans (QName.name_eq_of_chars_eq h)
      exact kind.first_ne_text (congrArg LocalName.first hname)
    have hends : ∀ c ∈ q.chars, Markup.endsName [c] = false := fun c hc =>
      endsName_cons_eq_false (QName.mem_chars hc) []
    exact silent_append.mpr ⟨silent_exactClosing_of_not_mem hbefore _ _, silent_append.mpr
      ⟨silent_exactClosing_messageElement hends hne hraw _,
        silent_exactClosing_of_not_mem hbehind _ _⟩⟩

/-- A block holds no end tag with the bare name of a kind, if its own is not that. -/
theorem BlockShape.silent_exactClosing (h : b.kind = kind → b.isBare = false) (s : List Char) :
    Silent (exactClosing? kind.localName.chars) b.chars s := by
  refine silent_append.mpr ⟨silent_exactClosing_startTag _ (by simp [b.lt_not_mem]) _ _,
    silent_append.mpr ⟨Content.silent_exactClosing (q := ⟨none, kind.localName⟩) b.plain rfl _, ?_⟩⟩
  unfold BlockShape.endTag
  split
  · trivial
  · rename_i hended
    refine silent_exactClosing_endTag (fun c hc => (kind.localName.nameLike.2 c hc).1) ?_ s
    intro hchars
    -- The end tag of the block would be the bare name of its kind.
    have hkind : b.kind = kind := by
      by_contra hne
      have hname := @QName.name_eq_of_chars_eq b.qname ⟨none, kind.localName⟩ hchars.symm
      exact BlockKind.first_ne hne (congrArg LocalName.first hname)
    have hqualifier : b.qualifier = none := by
      cases hq : b.qualifier with
      | none => rfl
      | some p =>
        have hcolon : ':' ∈ b.qname.chars := by
          simp [QName.chars, QName.front, BlockShape.qname, hq]
        exact absurd (hchars ▸ hcolon) (LocalName.not_mem_chars (by decide) _)
    have hbare : b.isBare = true := by
      simp [BlockShape.isBare, hqualifier, hended]
    exact Bool.false_ne_true ((h hkind).symm.trans hbare)

/-- A block has characters. -/
theorem BlockShape.chars_length_pos (b : BlockShape) : 0 < b.chars.length :=
  Nat.succ_pos _

/-- A block with an end tag is read as one of its kind. -/
theorem BlockShape.block?_chars (hended : b.content.isClosed = false) (s : List Char) :
    block? b.kind (b.chars ++ s) = some (⟨b.inside, b.content.chars, b.chars ++ s⟩, s) := by
  have hread := block?_element (q := b.qname) rfl b.gt_not_mem b.endsName b.endsWord
    (b.endsWithSlash.trans hended) (Content.silent_exactClosing b.plain rfl (b.qname.endTag ++ s))
  have hchars : b.chars ++ s = '<' :: (b.qname.chars ++ (b.inside ++ '>' ::
      (b.content.chars ++ (b.qname.endTag ++ s)))) := by
    simp [BlockShape.chars, BlockShape.endTag, hended]
  rw [hchars]
  exact hread

/-- A text whose end is that of an element closed at once has this end behind a name too. -/
theorem endsWithSlash_of_append_eq {n : LocalName} {u t w : List Char} (h : u ++ t = n.chars ++ w)
    (ht : endsWithSlash t = true) : endsWithSlash w = true := by
  have hlast : (n.chars ++ w).getLast? = some '/' := by
    rw [← h, List.getLast?_append, beq_iff_eq.mp ht]
    rfl
  rw [List.getLast?_append] at hlast
  cases hw : w.getLast? with
  | some c =>
    rw [hw, Option.some_or] at hlast
    exact beq_iff_eq.mpr (hw.trans hlast)
  | none =>
    rw [hw, Option.none_or] at hlast
    exact absurd (List.mem_of_getLast? hlast) (n.not_mem_chars (by decide))

/-- A block that is closed at once is its start tag. -/
theorem BlockShape.chars_of_closed (hclosed : b.content.isClosed = true) :
    b.chars = '<' :: (b.qname.chars ++ (b.inside ++ ['>'])) := by
  have hcontent : b.content.chars = [] := by
    cases hc : b.content with
    | closed => rfl
    | gap t => rw [hc] at hclosed; exact absurd hclosed Bool.false_ne_true
    | message before qualifier raw behind =>
      rw [hc] at hclosed
      exact absurd hclosed Bool.false_ne_true
  rw [BlockShape.chars, BlockShape.endTag, if_pos hclosed, hcontent, List.append_nil,
    List.append_nil]

/-- A block that is closed at once holds no block. -/
theorem BlockShape.silent_of_closed (hclosed : b.content.isClosed = true) (s : List Char) :
    Silent (block? kind) b.chars s := by
  have hslash : Markup.endsWithSlash b.inside = true := b.endsWithSlash.trans hclosed
  have hname : b.qname.name = kind.localName ∨
      kind.localName.first ≠ b.qname.name.first := by
    by_cases hkind : b.kind = kind
    · exact Or.inl (congrArg BlockKind.localName hkind)
    · exact Or.inr (BlockKind.first_ne (Ne.symm hkind))
  -- Whatever is taken for the name, the tag ends with a slash.
  have hnone := block?_startTag_eq_none (s := s) hname b.gt_not_mem b.endsName
    (fun _ => Or.inl hslash) fun w hw _ => Or.inl (endsWithSlash_of_append_eq hw hslash)
  rw [b.chars_of_closed hclosed]
  refine ⟨by simpa using hnone, silent_block?_of_not_mem kind ?_ s⟩
  simp [b.qname.lt_not_mem, b.lt_not_mem]

/-- No block is read at a start tag with another name, unless a prefix is taken for the name of the
block and the end tag of that follows. -/
theorem silent_block?_startTag {q : QName} (hfirst : kind.localName.first ≠ q.name.first)
    {t s : List Char} (hlt : '<' ∉ t) (hgt : '>' ∉ t) (hends : endsName (t ++ ['>']) = true)
    (hpass : q.qualifier.any (passesFor kind.localName) = true →
      Silent (exactClosing? kind.localName.chars) s []) :
    Silent (block? kind) ('<' :: (q.chars ++ (t ++ ['>']))) s := by
  have hbare : ∀ w, q.chars ++ t = kind.localName.chars ++ w → endsWord (w ++ ['>']) = true →
      endsWithSlash w = true ∨ Silent (exactClosing? kind.localName.chars) s [] := by
    intro w hw hword
    refine Or.inr (hpass ?_)
    obtain ⟨qualifier, name⟩ := q
    cases qualifier with
    | none => exact absurd (List.cons.inj hw).1.symm hfirst
    | some p =>
      -- The name lies before the colon, so that the prefix begins with it.
      rw [QName.chars_some] at hw
      obtain ⟨v, hp, rfl⟩ := append_cons_eq_append
        (LocalName.not_mem_chars (by decide) kind.localName) hw
      have hafter : after? kind.localName.chars p.chars = some v := after?_eq_some.mpr hp
      have hcolon : endsWord (v ++ [':']) = true := by
        cases v with
        | nil => rfl
        | cons c v => exact hword
      rw [Option.any_some, passesFor, hafter, Option.any_some, hcolon]
  have hnone := block?_startTag_eq_none (Or.inr hfirst) hgt hends
    (fun h => absurd (congrArg LocalName.first h).symm hfirst) hbare
  refine ⟨by simpa using hnone, silent_block?_of_not_mem kind ?_ s⟩
  simp [q.lt_not_mem, hlt]

/-- A block of another kind holds no block, unless a prefix is taken for the name and the end tag of
that follows. -/
theorem BlockShape.silent_of_ne (hne : kind ≠ b.kind) {s : List Char}
    (hpass : b.passesFor kind = true → Silent (exactClosing? kind.localName.chars) s []) :
    Silent (block? kind) b.chars s := by
  cases hclosed : b.content.isClosed with
  | true => exact b.silent_of_closed hclosed s
  | false =>
    -- Where a prefix is taken for the name, its end tag follows neither in the block nor behind it.
    have hclosing : ∀ q : Option Qualifier, (q = b.qualifier ∨ q = b.content.qualifier?) →
        q.any (Report.passesFor kind.localName) = true →
          ∀ u, u <:+ b.chars ++ s → Silent (exactClosing? kind.localName.chars) u [] := by
      intro q hq hany u hu
      have hpasses : b.passesFor kind = true := by
        rcases hq with rfl | rfl <;> simp [BlockShape.passesFor, hclosed, hany]
      refine Silent.of_suffix (silent_append.mpr ⟨?_, hpass hpasses⟩) hu
      rw [List.append_nil]
      exact b.silent_exactClosing (fun h => absurd h.symm hne) s
    refine silent_append.mpr ⟨?_, silent_append.mpr ⟨?_, ?_⟩⟩
    · refine silent_block?_startTag (BlockKind.first_ne hne) b.lt_not_mem b.gt_not_mem b.endsName
        fun hany => hclosing _ (Or.inl rfl) hany _ ?_
      exact ⟨'<' :: (b.qname.chars ++ (b.inside ++ ['>'])), by simp [BlockShape.chars]⟩
    · have hplain := b.plain
      cases hcontent : b.content with
      | closed => trivial
      | gap t =>
        rw [hcontent] at hplain
        exact silent_block?_of_not_mem kind hplain _
      | message before qualifier raw behind =>
        rw [hcontent] at hplain
        obtain ⟨hbefore, hraw, hbehind⟩ : '<' ∉ before ∧ '<' ∉ raw ∧ '<' ∉ behind := by
          simpa [Content.plain] using hplain
        refine silent_append.mpr ⟨silent_block?_of_not_mem kind hbefore _, silent_append.mpr
          ⟨silent_append.mpr ⟨?_, silent_append.mpr ⟨silent_block?_of_not_mem kind hraw _,
            silent_block?_endTag kind _ _⟩⟩, silent_block?_of_not_mem kind hbehind _⟩⟩
        refine silent_block?_startTag (t := []) kind.first_ne_text (by simp) (by simp) (by decide)
          fun hany => hclosing _ (Or.inr (by rw [hcontent]; rfl)) hany _ ?_
        exact ⟨'<' :: (b.qname.chars ++ (b.inside ++ ['>'])) ++
          (before ++ '<' :: ((⟨qualifier, textName⟩ : QName).chars ++ ['>'])), by
            simp [BlockShape.chars, hcontent, Content.chars, messageElement]⟩
    · rw [BlockShape.endTag, if_neg (by simp [hclosed])]
      exact silent_block?_endTag kind _ s

/-- A block that is cut off holds no end tag of the name of a kind. -/
theorem BlockShape.silent_exactClosing_take {q : QName} (hq : q.name = kind.localName) {k : Nat}
    (hk : k < b.chars.length) : Silent (exactClosing? q.chars) (b.chars.take k) [] := by
  -- Without its last character, that of its last tag, the block has no end tag.
  have hsilent : ∃ u, b.chars = u ++ ['>'] ∧ Silent (exactClosing? q.chars) u [] := by
    cases hclosed : b.content.isClosed with
    | true =>
      refine ⟨'<' :: (b.qname.chars ++ b.inside), ?_,
        silent_exactClosing_startTag _ b.lt_not_mem _ _⟩
      rw [b.chars_of_closed hclosed]
      simp
    | false =>
      refine ⟨'<' :: (b.qname.chars ++ (b.inside ++ ['>'])) ++
        (b.content.chars ++ '<' :: '/' :: b.qname.chars), ?_, ?_⟩
      · simp [BlockShape.chars, BlockShape.endTag, hclosed, QName.endTag]
      · refine silent_append.mpr ⟨silent_exactClosing_startTag _ (by simp [b.lt_not_mem]) _ _,
          silent_append.mpr ⟨Content.silent_exactClosing b.plain hq _, ?_, ?_⟩⟩
        · refine exactClosing?_of_not_mem ?_ _
          have hgt : '>' ∉ b.qname.chars := b.qname.not_mem_chars (by decide) (by decide)
          simp [hgt]
        · exact silent_exactClosing_of_not_mem (by simp [b.qname.lt_not_mem]) _ _
  obtain ⟨u, hu, hsilent⟩ := hsilent
  refine hsilent.of_prefix (extends_exactClosing q.chars) ?_
  rw [hu] at hk ⊢
  rw [List.length_append] at hk
  rw [List.take_append_of_le_length (Nat.le_of_lt_succ hk)]
  exact List.take_prefix k u

/-- A block that is cut off holds no block. -/
theorem BlockShape.silent_take {k : Nat} (hk : k < b.chars.length) :
    Silent (block? kind) (b.chars.take k) [] :=
  silent_block?_of_closing fun _ hq => b.silent_exactClosing_take hq hk

end

/-! ## Reports -/

section

variable {ι : Type} (shape : ι → BlockShape)

/-- The characters of blocks, each with the text behind it. -/
def layout (items : List (ι × List Char)) : List Char :=
  items.flatMap fun i => (shape i.1).chars ++ i.2

/-- The blocks with the places at which they end, when the first begins at `start`. -/
def endings (start : Nat) : List (ι × List Char) → List (ι × Nat)
  | [] => []
  | (b, t) :: items =>
    (b, start + (shape b).chars.length) ::
      endings (start + (shape b).chars.length + t.length) items

/-- The blocks that end within the first `k` characters, when the first begins at `start`. -/
def complete (k start : Nat) (items : List (ι × List Char)) : List ι :=
  ((endings shape start items).filter fun p => p.2 ≤ k).map Prod.fst

variable {shape}

/-- A report begins with its first block. -/
theorem layout_cons (b : ι) (t : List Char) (items : List (ι × List Char)) :
    layout shape ((b, t) :: items) = (shape b).chars ++ (t ++ layout shape items) := by
  simp [layout]

/-- No block ends before the first begins. -/
theorem le_of_mem_endings {start : Nat} {items : List (ι × List Char)} {p : ι × Nat}
    (h : p ∈ endings shape start items) : start ≤ p.2 := by
  induction items generalizing start with
  | nil => exact absurd h List.not_mem_nil
  | cons i items ih =>
    rcases List.mem_cons.mp h with rfl | h
    · exact Nat.le_add_right _ _
    · have hle := ih h
      omega

/-- When the first block is complete, so are the later ones that are; otherwise none is. -/
theorem complete_cons (k start : Nat) (b : ι) (t : List Char) (items : List (ι × List Char)) :
    complete shape k start ((b, t) :: items) =
      if start + (shape b).chars.length ≤ k then
        b :: complete shape k (start + (shape b).chars.length + t.length) items
      else [] := by
  split
  · rename_i hk
    simp [complete, endings, hk]
  · rename_i hk
    rw [complete, List.map_eq_nil_iff, List.filter_eq_nil_iff]
    intro p hp
    rcases List.mem_cons.mp hp with rfl | hp
    · simpa using hk
    · have hle := le_of_mem_endings hp
      simp
      omega

/-- A report goes on with a block. -/
theorem atTag_layout (items : List (ι × List Char)) : AtTag (layout shape items) := by
  intro c hc
  cases items with
  | nil => simp [layout] at hc
  | cons i items =>
    have hhead : (layout shape (i :: items)).head? = some '<' := rfl
    exact (Option.some.inj (hhead.symm.trans hc)).symm

/-- A report that is cut off goes on with a block as well, or ends. -/
theorem atTag_take (k : Nat) (items : List (ι × List Char)) :
    AtTag ((layout shape items).take k) := by
  cases k with
  | zero => simp [AtTag]
  | succ k =>
    intro c hc
    rw [List.head?_take, if_neg (Nat.succ_ne_zero k)] at hc
    exact atTag_layout items c hc

/-- The text behind a block holds no end tag with the bare name of a kind. -/
theorem silent_exactClosing_gap {kind : BlockKind} {t : List Char}
    (ht : ¬ kind.localName.chars <:+: t) {n : Nat} {items : List (ι × List Char)}
    (hrest : Silent (exactClosing? kind.localName.chars)
      ((layout shape items).take (n - t.length)) []) :
    Silent (exactClosing? kind.localName.chars) ((t ++ layout shape items).take n) [] := by
  rw [List.take_append]
  refine silent_append.mpr ⟨silent_exactClosing_of_unnamed ?_ fun h => ht ?_, hrest⟩
  · rw [List.append_nil]
    exact atTag_take _ items
  · exact h.trans (List.take_prefix n t).isInfix

/-- A report that is cut off holds no end tag with the bare name of a kind, if no complete block of
the kind has that. -/
theorem silent_exactClosing_layout {kind : BlockKind} {k start : Nat}
    {items : List (ι × List Char)}
    (hbare : ∀ b ∈ complete shape k start items,
      (shape b).kind = kind → (shape b).isBare = false)
    (hplain : ∀ i ∈ items, ¬ kind.localName.chars <:+: i.2) :
    Silent (exactClosing? kind.localName.chars) ((layout shape items).take (k - start)) [] := by
  induction items generalizing start with
  | nil => simp [layout, Silent]
  | cons i items ih =>
    obtain ⟨b, t⟩ := i
    rw [layout_cons]
    by_cases hk : start + (shape b).chars.length ≤ k
    · rw [complete_cons, if_pos hk] at hbare
      have hrest := ih (fun c hc => hbare c (List.mem_cons_of_mem b hc))
        fun i hi => hplain i (List.mem_cons_of_mem _ hi)
      rw [← Nat.sub_sub] at hrest
      rw [List.take_append, List.take_of_length_le (by omega), Nat.sub_sub]
      exact silent_append.mpr ⟨BlockShape.silent_exactClosing (hbare b List.mem_cons_self) _,
        silent_exactClosing_gap (hplain (b, t) List.mem_cons_self) hrest⟩
    · have hcut : k - start < (shape b).chars.length := by
        have hpos := (shape b).chars_length_pos
        omega
      rw [List.take_append_of_le_length (Nat.le_of_lt hcut)]
      exact BlockShape.silent_exactClosing_take (q := ⟨none, kind.localName⟩) rfl hcut

/-- The text behind a block holds no block. -/
theorem collect_gap {kind : BlockKind} {t : List Char} (ht : ¬ kind.localName.chars <:+: t)
    (n : Nat) (items : List (ι × List Char)) :
    collect (block? kind) ((t ++ layout shape items).take n) =
      collect (block? kind) ((layout shape items).take (n - t.length)) := by
  rw [List.take_append]
  refine collect_append_of_silent (silent_block?_of_unnamed (atTag_take _ items) fun h => ht ?_)
  exact h.trans (List.take_prefix n t).isInfix

/-- A block that is not one of the kind with an end tag holds none of the kind, if it misleads to no
complete block behind it. -/
theorem silent_of_not_found {kind : BlockKind} {b : ι} {t : List Char} {k start : Nat}
    {items : List (ι × List Char)}
    (hfound : ¬ ((shape b).kind = kind ∧ (shape b).content.isClosed = false))
    (hclear : ∀ c ∈ complete shape k (start + t.length) items,
      (shape b).misleads (shape c) = false)
    (ht : ¬ kind.localName.chars <:+: t)
    (hplain : ∀ i ∈ items, ¬ kind.localName.chars <:+: i.2) :
    Silent (block? kind) (shape b).chars ((t ++ layout shape items).take (k - start)) := by
  cases hclosed : (shape b).content.isClosed with
  | true => exact BlockShape.silent_of_closed hclosed _
  | false =>
    have hne : kind ≠ (shape b).kind := fun h => hfound ⟨h.symm, hclosed⟩
    refine BlockShape.silent_of_ne hne fun hpasses => ?_
    -- No end tag with the bare name of the kind follows where a prefix is taken for that.
    have hbare : ∀ c ∈ complete shape k (start + t.length) items,
        (shape c).kind = kind → (shape c).isBare = false := by
      intro c hc hkind
      have hnot := hclear c hc
      rw [BlockShape.misleads, hkind, hpasses, bne_iff_ne.mpr (Ne.symm hne)] at hnot
      exact hnot
    refine silent_exactClosing_gap ht ?_
    rw [Nat.sub_sub]
    exact silent_exactClosing_layout hbare hplain

/-- Of a report that is cut off the blocks of a kind are found that are complete and have an end
tag. -/
theorem collect_take (kind : BlockKind) {k start : Nat} {items : List (ι × List Char)}
    (hplain : ∀ i ∈ items, ¬ kind.localName.chars <:+: i.2)
    (hclear : (complete shape k start items).Pairwise fun b c =>
      (shape b).misleads (shape c) = false) :
    (collect (block? kind) ((layout shape items).take (k - start))).map
        (fun b => (b.attributes, b.body)) =
      ((complete shape k start items).filter fun b =>
        (shape b).kind == kind && !(shape b).content.isClosed).map
          fun b => ((shape b).inside, (shape b).content.chars) := by
  induction items generalizing start with
  | nil => simp [layout, complete, endings, collect]
  | cons i items ih =>
    obtain ⟨b, t⟩ := i
    have ht : ¬ kind.localName.chars <:+: t := hplain (b, t) List.mem_cons_self
    have hplain' : ∀ j ∈ items, ¬ kind.localName.chars <:+: j.2 := fun j hj =>
      hplain j (List.mem_cons_of_mem _ hj)
    rw [layout_cons]
    by_cases hk : start + (shape b).chars.length ≤ k
    · rw [complete_cons, if_pos hk] at hclear ⊢
      obtain ⟨hmisleads, hclear⟩ := List.pairwise_cons.mp hclear
      have ih := ih hplain' hclear
      have hgap := @collect_gap _ shape _ _ ht (k - (start + (shape b).chars.length)) items
      rw [Nat.sub_sub] at hgap
      rw [List.take_append, List.take_of_length_le (by omega), Nat.sub_sub]
      -- The block is read and passed over, or else it holds none of the kind.
      by_cases hfound : (shape b).kind = kind ∧ (shape b).content.isClosed = false
      · obtain ⟨rfl, hended⟩ := hfound
        rw [collect_of_some (reduces_block _) (BlockShape.block?_chars hended _), hgap,
          List.map_cons, ih, List.filter_cons_of_pos (by simp [hended]), List.map_cons]
      · rw [collect_append_of_silent (silent_of_not_found hfound hmisleads ht hplain'), hgap, ih,
          List.filter_cons_of_neg (by simpa using hfound)]
    · -- The block is cut off, and nothing is left of the report behind it.
      have hcut : k - start < (shape b).chars.length := by
        have hpos := (shape b).chars_length_pos
        omega
      rw [List.take_append_of_le_length (Nat.le_of_lt hcut), complete_cons, if_neg hk,
        collect_of_silent (BlockShape.silent_take hcut)]
      rfl

/-- A complete block is one of the report. -/
theorem exists_of_mem_complete {k start : Nat} {items : List (ι × List Char)} {b : ι}
    (h : b ∈ complete shape k start items) : ∃ t, (b, t) ∈ items := by
  obtain ⟨p, hp, rfl⟩ := List.mem_map.mp h
  have hmem := (List.mem_filter.mp hp).1
  clear hp h
  induction items generalizing start with
  | nil => exact absurd hmem List.not_mem_nil
  | cons i items ih =>
    rcases List.mem_cons.mp hmem with rfl | hmem
    · exact ⟨i.2, List.mem_cons_self⟩
    · obtain ⟨t, ht⟩ := ih hmem
      exact ⟨t, List.mem_cons_of_mem i ht⟩

/-- What a block states: nothing, when it is closed at once, and otherwise what is read from its
attributes and its content. -/
def States (b : BlockShape) (v : Option Violation) : Prop :=
  if b.content.isClosed then v = none
  else ∀ tail, violation? ⟨b.inside, b.content.chars, tail⟩ = .ok v

/-- A report that is cut off states what its complete blocks state, kind by kind. -/
theorem violations_take {lead : List Char} {items : List (ι × List Char)} {k : Nat} {limit : Int}
    (hplain : ∀ kind : BlockKind, ∀ t ∈ lead :: items.map Prod.snd,
      ¬ kind.localName.chars <:+: t)
    (hclear : (complete shape k lead.length items).Pairwise fun b c =>
      (shape b).misleads (shape c) = false)
    {stated : ι → Option Violation} (hstated : ∀ i ∈ items, States (shape i.1) (stated i.1))
    (hk : (k : Int) ≤ limit) :
    violations limit (String.ofList ((lead ++ layout shape items).take k)) =
      .ok (BlockKind.all.flatMap fun kind =>
        ((complete shape k lead.length items).filter fun b => (shape b).kind == kind).filterMap
          stated) := by
  -- The blocks that are found, each with its attributes and its body, are those that are complete.
  have hblocks : (blocks (String.ofList ((lead ++ layout shape items).take k))).map
        (fun b => (b.2.attributes, b.2.body)) =
      (BlockKind.all.flatMap fun kind => (complete shape k lead.length items).filter fun b =>
        (shape b).kind == kind && !(shape b).content.isClosed).map
          fun b => ((shape b).inside, (shape b).content.chars) := by
    rw [blocks, String.toList_ofList, List.map_flatMap, List.map_flatMap]
    refine List.flatMap_congr fun kind _ => ?_
    rw [List.map_map, collect_gap (hplain kind lead List.mem_cons_self),
      ← collect_take kind (fun i hi => hplain kind i.2 ?_) hclear]
    · rfl
    · exact List.mem_cons_of_mem _ (List.mem_map_of_mem hi)
  have hread : (blocks (String.ofList ((lead ++ layout shape items).take k))).mapM
        (fun b => violation? b.2) =
      .ok ((BlockKind.all.flatMap fun kind => (complete shape k lead.length items).filter fun b =>
        (shape b).kind == kind && !(shape b).content.isClosed).map stated) := by
    have hpair := congrArg (List.mapM fun p : List Char × List Char => violation? ⟨p.1, p.2, []⟩)
      hblocks
    rw [List.mapM_map, List.mapM_map] at hpair
    refine hpair.trans (mapM_eq_ok fun b hb => ?_)
    obtain ⟨kind, -, hb⟩ := List.mem_flatMap.mp hb
    obtain ⟨hb, hkind⟩ := List.mem_filter.mp hb
    obtain ⟨t, ht⟩ := exists_of_mem_complete hb
    have hb := hstated _ ht
    rw [States, if_neg (by simpa using (Bool.and_eq_true_iff.mp hkind).2)] at hb
    exact hb []
  have hlength :
      ¬ ((String.ofList ((lead ++ layout shape items).take k)).length : Int) > limit := by
    rw [String.length_ofList, List.length_take]
    omega
  rw [violations, if_neg hlength, hread]
  change Except.ok (List.filterMap id _) = _
  rw [List.filterMap_map, List.filterMap_flatMap]
  refine congrArg Except.ok (List.flatMap_congr fun kind _ => ?_)
  -- The blocks that are closed at once state nothing.
  rw [List.filterMap_filter, List.filterMap_filter]
  refine List.filterMap_congr fun b hb => ?_
  obtain ⟨t, ht⟩ := exists_of_mem_complete hb
  have hb := hstated _ ht
  cases hclosed : (shape b).content.isClosed with
  | false => simp
  | true =>
    rw [States, if_pos hclosed] at hb
    simp [hb]

end

end StylesheetTrace.Report
