import StylesheetTrace.Proofs.Report.Element

/-!
# The message of a block read back

The element `text` that holds the message is the first one in the content of its block, whatever
stands around it without tags (`firstForm?_messageElement`). A message without markup is the text of
its references, and blanks that are single spaces between other characters stay as they are
(`messageText_escapeQuoted`).
-/

namespace StylesheetTrace.Report

open StylesheetTrace.Text StylesheetTrace.Entity StylesheetTrace.Markup

/-! ## The element with the message -/

/-- The characters of an element without attributes that holds a text. -/
def messageElement (q : QName) (raw : List Char) : List Char :=
  '<' :: (q.chars ++ ['>']) ++ (raw ++ q.endTag)

section

variable {q : QName} {raw before behind : List Char}

/-- A text without `<` holds no element `text`. -/
theorem silent_textElement? {t : List Char} (h : '<' ∉ t) (s : List Char) :
    Silent textElement? t s := by
  refine silent_of_not_mem (fun c u hc => ?_) h s
  unfold textElement?
  split
  · rename_i heq
    exact absurd (List.cons.inj heq).1 hc
  · rfl

/-- In a text without `<` no message is found. -/
theorem firstForm?_textElement?_of_not_mem {t : List Char} (h : '<' ∉ t) :
    firstForm? textElement? t = none := by
  rw [firstForm?, leftmost?_of_silent (silent_textElement? h []) rfl]
  rfl

/-- The message is found in the text around its element. -/
theorem firstForm?_messageElement (hname : q.name = textName) (hraw : '<' ∉ raw)
    (hbefore : '<' ∉ before) :
    firstForm? textElement? (before ++ (messageElement q raw ++ behind)) = some raw := by
  have hbody : body? q.chars (raw ++ '<' :: '/' :: (q.chars ++ '>' :: behind)) =
      some (raw, behind) :=
    body?_append (silent_exactClosing_of_not_mem hraw _ _)
  have hread : textBody? q.chars ('>' :: (raw ++ '<' :: '/' :: (q.chars ++ '>' :: behind))) =
      some (raw, behind) := by
    have hinside := tagInside?_append (t := []) List.not_mem_nil
      (raw ++ '<' :: '/' :: (q.chars ++ '>' :: behind))
    rw [List.nil_append] at hinside
    rw [textBody?, if_pos (by rfl), hinside]
    exact hbody
  have hchars : messageElement q raw ++ behind =
      '<' :: (q.chars ++ '>' :: (raw ++ '<' :: '/' :: (q.chars ++ '>' :: behind))) := by
    simp [messageElement, QName.endTag]
  have htext : "text".toList = q.name.chars := by
    rw [hname]
    rfl
  have hform : textElement? (messageElement q raw ++ behind) = some (raw, behind) := by
    rw [hchars, textElement?, htext]
    exact prefixedElement?_append rfl hread
  exact firstForm?_append_of_silent (silent_textElement? hbefore _) hform

/-- The element with the message holds no end tag of another name. -/
theorem silent_exactClosing_messageElement {tag : List Char}
    (htag : ∀ c ∈ tag, endsName [c] = false) (hne : tag ≠ q.chars) (hraw : '<' ∉ raw)
    (s : List Char) : Silent (exactClosing? tag) (messageElement q raw) s := by
  refine silent_append.mpr ⟨?_, silent_append.mpr ⟨?_, ?_⟩⟩
  -- In turn the start tag of the message, the message and its end tag.
  · exact silent_exactClosing_startTag _ (by decide) tag _
  · exact silent_exactClosing_of_not_mem hraw tag _
  · exact silent_exactClosing_endTag htag hne _

end

/-! ## The text of a message -/

/-- A message without markup is the text of its references, stripped and with blanks collapsed. -/
theorem messageText_of_not_mem {raw : List Char} (h : '<' ∉ raw) :
    messageText raw = (unescape raw).map fun s => String.ofList (strip (collapse s)) := by
  have hsilent : Silent innerTag? raw [] := by
    refine silent_of_not_mem (fun c t hc => ?_) h []
    unfold innerTag?
    split
    · rename_i heq
      exact absurd (List.cons.inj heq).1 hc
    · rfl
  rw [messageText, erase_of_silent hsilent]

/-- The blanks of the text are single spaces between other characters. -/
structure Normalized (s : List Char) : Prop where
  /-- Every blank is a space. -/
  eq_space : ∀ c ∈ s, isBlank c = true → c = ' '
  /-- No two spaces stand side by side. -/
  single : ¬ [' ', ' '] <:+: s
  /-- The text does not begin with a blank. -/
  head : ∀ c ∈ s.head?, isBlank c = false
  /-- The text does not end with a blank. -/
  last : ∀ c ∈ s.getLast?, isBlank c = false

/-- Collapsing leaves single spaces as they are. -/
theorem collapse_eq_self {s : List Char} (hspace : ∀ c ∈ s, isBlank c = true → c = ' ')
    (hsingle : ¬ [' ', ' '] <:+: s) : collapse s = s := by
  induction s with
  | nil => rfl
  | cons c s ih =>
    have hrest : collapse s = s := ih (fun d hd => hspace d (List.mem_cons_of_mem c hd))
      fun h => hsingle (h.trans (List.suffix_cons c s).isInfix)
    have hstep : collapse (c :: s) = if isBlank c then
        (if (collapse s).head? == some ' ' then collapse s else ' ' :: collapse s)
      else c :: collapse s := rfl
    rw [hstep, hrest]
    by_cases hc : isBlank c = true
    · obtain rfl := hspace c List.mem_cons_self hc
      have hhead : (s.head? == some ' ') = false := by
        rw [beq_eq_false_iff_ne]
        intro hs
        obtain ⟨t, rfl⟩ := List.head?_eq_some_iff.mp hs
        exact hsingle ⟨[], t, rfl⟩
      rw [if_pos hc, hhead]
      rfl
    · rw [if_neg hc]

/-- A message that is escaped is read back if its blanks are single spaces between other
characters. -/
theorem messageText_escapeQuoted {s : List Char} (h : Normalized s) :
    messageText (escapeQuoted s) = .ok (String.ofList s) := by
  rw [messageText_of_not_mem (not_mem_escapeQuoted (Or.inl rfl) s), unescape_escapeQuoted,
    Except.map, collapse_eq_self h.eq_space h.single, strip_eq_self h.head h.last]

end StylesheetTrace.Report
