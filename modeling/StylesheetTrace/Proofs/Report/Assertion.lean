import StylesheetTrace.Proofs.Report.Layout

/-!
# An assertion report read back

A report of one block, whose attributes are written in any order and between quotes of either kind,
states one violation: that with the values of the attributes and with the text of the message
(`violations_chars`). The attributes are told apart by their names, and the block is the only one of
its layout.
-/

namespace StylesheetTrace.Report

open StylesheetTrace.Text StylesheetTrace.Entity StylesheetTrace.Markup

/-! ## Writing a block -/

/-- A block as it is written. -/
structure WrittenBlock where
  /-- The kind of the block. -/
  kind : BlockKind
  /-- The prefix of its tags. -/
  qualifier : Option Qualifier
  /-- The prefix of the element with the message. -/
  textQualifier : Option Qualifier
  /-- The attributes in their order, with the quotes around their values. -/
  order : List (Field × Quote)
  /-- The values of the attributes. -/
  value : Field → String
  /-- The message. -/
  message : String
  /-- The text around the element with the message. -/
  gap : List Char
  /-- Every attribute is given. -/
  complete : ∀ f, f ∈ order.map Prod.fst
  /-- No tag begins in the text around the element. -/
  gap_ok : '<' ∉ gap

namespace WrittenBlock

/-- The name of the block's tags. -/
def qname (b : WrittenBlock) : QName := ⟨b.qualifier, b.kind.localName⟩

/-- The name of the tags around the message. -/
def textQName (b : WrittenBlock) : QName := ⟨b.textQualifier, textName⟩

/-- An attribute behind a blank. -/
def attributeText (b : WrittenBlock) (p : Field × Quote) : List Char :=
  ' ' :: (p.1.name.toList ++ '=' :: p.2.char ::
    (escapeQuoted (b.value p.1).toList ++ [p.2.char]))

/-- The attributes of the block. -/
def attributes (b : WrittenBlock) : List Char := b.order.flatMap b.attributeText

/-- The element with the message. -/
def textElement (b : WrittenBlock) : List Char :=
  '<' :: (b.textQName.chars ++ ['>']) ++ (escape b.message.toList ++ b.textQName.endTag)

/-- The content of the block. -/
def body (b : WrittenBlock) : List Char := b.gap ++ (b.textElement ++ b.gap)

/-- The characters of the block. -/
def chars (b : WrittenBlock) : List Char :=
  '<' :: (b.qname.chars ++ (b.attributes ++ ['>'])) ++ (b.body ++ b.qname.endTag)

/-- The violation that the block states. -/
def violation (b : WrittenBlock) : Violation :=
  { ruleId := if b.value .id = "" then none else some (b.value .id)
    flag := b.value .flag
    location := b.value .location
    message := String.ofList (strip (collapse b.message.toList)) }

end WrittenBlock

/-! ## Attributes -/

section

variable (b : WrittenBlock)

/-- An attribute of the block, behind one blank and with none around its equals sign. -/
def WrittenBlock.written (p : Field × Quote) : WrittenAttribute :=
  { field := p.1
    quote := p.2
    value := b.value p.1
    before := [' ']
    left := []
    right := []
    before_ne_nil := List.cons_ne_nil _ _
    blank := List.all_eq_true.mp (by decide) }

/-- The attributes of the block are written one behind the other. -/
theorem attributes_eq_flatMap :
    b.attributes = (b.order.map b.written).flatMap WrittenAttribute.chars ++ [] := by
  rw [List.append_nil, List.flatMap_map]
  rfl

/-- The attributes have the values that are written. -/
theorem fieldValues_order :
    fieldValues b.attributes = .ok (b.order.map fun p => (p.1, b.value p.1)) := by
  rw [attributes_eq_flatMap, fieldValues_attributes _ (List.forall_mem_nil _), List.map_map]
  rfl

/-- The value of a field among values that depend on the field alone. -/
theorem lookup_map {order : List (Field × Quote)} (value : Field → String) {f : Field}
    (hf : f ∈ order.map Prod.fst) :
    (order.map fun p => (p.1, value p.1)).lookup f = some (value f) := by
  induction order with
  | nil => exact absurd hf List.not_mem_nil
  | cons p order ih =>
    rw [List.map_cons, List.lookup_cons]
    by_cases hp : f = p.1
    · rw [hp, beq_self_eq_true]
    · rw [beq_eq_false_iff_ne.mpr hp]
      refine ih ?_
      rw [List.map_cons, List.mem_cons] at hf
      exact hf.resolve_left hp

/-- The last value given for a field is the one that is written. -/
theorem lastValue?_map (f : Field) :
    lastValue? (b.order.map fun p => (p.1, b.value p.1)) f = some (b.value f) := by
  rw [lastValue?, ← List.map_reverse]
  refine lookup_map b.value ?_
  rw [List.map_reverse, List.mem_reverse]
  exact b.complete f

/-! ## The block -/

/-- The shape of the block. -/
def WrittenBlock.shape : BlockShape :=
  { kind := b.kind
    qualifier := b.qualifier
    inside := b.attributes
    content := .message b.gap b.textQualifier (escape b.message.toList) b.gap
    lt_not_mem := attributes_eq_flatMap b ▸
      not_mem_attributes (Or.inl rfl) _ (List.forall_mem_nil _)
    gt_not_mem := attributes_eq_flatMap b ▸
      not_mem_attributes (Or.inr rfl) _ (List.forall_mem_nil _)
    endsName := attributes_eq_flatMap b ▸
      (endsName_append (isBlank_head_attributes _ (List.forall_mem_nil _)) rfl rfl).1
    endsWord := attributes_eq_flatMap b ▸
      (endsName_append (isBlank_head_attributes _ (List.forall_mem_nil _)) rfl rfl).2
    endsWithSlash := attributes_eq_flatMap b ▸ endsWithSlash_attributes _ (List.forall_mem_nil _)
    plain := by simp [Content.plain, b.gap_ok, (not_mem_escape b.message.toList).1] }

/-- The block states its violation. -/
theorem states_shape : States b.shape (some b.violation) := by
  intro tail
  have hid : (some (b.value .id)).filter (fun id => !id.isEmpty) =
      if b.value .id = "" then none else some (b.value .id) := by
    by_cases h : b.value .id = ""
    · simp [h]
    · simp [h]
  have hmessage : firstForm? textElement? b.shape.content.chars = some (escape b.message.toList) :=
    firstForm?_messageElement rfl (not_mem_escape _).1 b.gap_ok
  have hvalues : fieldValues b.shape.inside = .ok (b.order.map fun p => (p.1, b.value p.1)) :=
    fieldValues_order b
  unfold violation?
  simp only [hmessage, hvalues, bind, Except.bind, messageText_of_not_mem (not_mem_escape _).1,
    unescape_escape, Except.map, lastValue?_map, hid]
  rfl

/-- A report of one block states its violation and no other. -/
theorem violations_chars {limit : Int} (h : (b.chars.length : Int) ≤ limit) :
    violations limit (String.ofList b.chars) = .ok [b.violation] := by
  have hlayout : layout WrittenBlock.shape [(b, [])] = b.chars :=
    (List.append_nil _).trans (List.append_nil _)
  have hcomplete : complete WrittenBlock.shape b.chars.length 0 [(b, [])] = [b] := by
    have hends : 0 + b.shape.chars.length ≤ b.chars.length := Nat.le_of_eq (Nat.zero_add _)
    rw [complete_cons, if_pos hends]
    rfl
  have hclear : (complete WrittenBlock.shape b.chars.length 0 [(b, [])]).Pairwise fun b c =>
      b.shape.misleads c.shape = false := by
    rw [hcomplete]
    exact List.pairwise_singleton _ _
  have hread := @violations_take _ WrittenBlock.shape [] [(b, [])] b.chars.length limit
    (fun kind t ht => ?_) hclear (fun c => some c.violation) (fun i hi => ?_) h
  · have hkind : b.shape.kind = b.kind := rfl
    rw [List.nil_append, hlayout, List.take_length, List.length_nil, hcomplete] at hread
    rw [hread]
    cases hb : b.kind <;> simp [BlockKind.all, hkind, hb]
  · obtain rfl : t = [] := by simpa using ht
    rw [List.infix_nil]
    exact List.cons_ne_nil _ _
  · obtain rfl := List.mem_singleton.mp hi
    exact states_shape b

end

end StylesheetTrace.Report
