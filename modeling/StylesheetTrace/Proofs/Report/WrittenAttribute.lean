import StylesheetTrace.Proofs.Report.StartAttribute

/-!
# The attributes of a block read back

An attribute of a field is written behind blanks, with a value escaped for quotes between quotes of
either kind, and with blanks around the equals sign. Such an attribute is clear: no `>` stands in
its value, and it gives a value for a field (`clear_written`). So of attributes that are written one
behind the other the reader finds each, with its value as it was (`fieldValues_attributes`).
-/

namespace StylesheetTrace.Report

open StylesheetTrace.Text StylesheetTrace.Entity StylesheetTrace.Markup

/-! ## Writing an attribute -/

/-- An attribute as it is written. -/
structure WrittenAttribute where
  /-- The field that it gives. -/
  field : Field
  /-- The quotes around its value. -/
  quote : Quote
  /-- Its value. -/
  value : String
  /-- The blanks before it. -/
  before : List Char
  /-- The blanks before its equals sign. -/
  left : List Char
  /-- The blanks behind its equals sign. -/
  right : List Char
  /-- There is a blank before it. -/
  before_ne_nil : before ≠ []
  /-- All these are blanks. -/
  blank : ∀ c ∈ before ++ (left ++ right), isBlank c = true

namespace WrittenAttribute

/-- The attribute without the blanks before it. -/
def text (a : WrittenAttribute) : List Char :=
  a.field.name.toList ++ (a.left ++ '=' :: (a.right ++ a.quote.char ::
    (escapeQuoted a.value.toList ++ [a.quote.char])))

/-- The characters of an attribute. -/
def chars (a : WrittenAttribute) : List Char := a.before ++ a.text

/-- The attribute as one of any name. -/
def start (a : WrittenAttribute) : StartAttribute where
  name := a.field.name.toList
  quote := a.quote
  value := escapeQuoted a.value.toList
  before := a.before
  left := a.left
  right := a.right
  name_ok := fun _ hc => not_mem_of_isPrefixChar
    (List.all_eq_true.mp (by cases a.field <;> decide) _ hc)
  value_ok := ⟨not_mem_escapeQuoted (Or.inl rfl) _,
    not_mem_escapeQuoted (by cases a.quote <;> simp [Quote.char]) _⟩
  before_ne_nil := a.before_ne_nil
  blank := a.blank

end WrittenAttribute

/-- The characters are those of attributes of any name. -/
theorem flatMap_start (as : List WrittenAttribute) :
    (as.map WrittenAttribute.start).flatMap StartAttribute.chars =
      as.flatMap WrittenAttribute.chars := by
  rw [List.flatMap_map]
  refine List.flatMap_congr fun a _ => ?_
  simp [StartAttribute.chars, StartAttribute.front, WrittenAttribute.start,
    WrittenAttribute.chars, WrittenAttribute.text]

/-- An attribute gives its value for its field. -/
theorem WrittenAttribute.field?_start (a : WrittenAttribute) : a.start.field? = some a.field :=
  fieldNamed?_eq_some.mpr rfl

/-- Attributes that are written are read rightly. -/
theorem clear_written (as : List WrittenAttribute) : Clear (as.map WrittenAttribute.start) := by
  induction as with
  | nil => trivial
  | cons a as ih =>
    have hfield : a.start.field? ≠ none := by
      rw [a.field?_start]
      exact Option.some_ne_none _
    exact ⟨fun h => absurd h hfield, Or.inl ⟨not_mem_escapeQuoted (Or.inr (Or.inl rfl)) _,
      fun h => absurd h hfield, ih⟩⟩

/-! ## Attributes in a tag -/

/-- Attributes and the blanks behind them hold no angle bracket. -/
theorem not_mem_attributes {d : Char} (hd : d = '<' ∨ d = '>') (as : List WrittenAttribute)
    {trailing : List Char} (htrailing : ∀ c ∈ trailing, isBlank c = true) :
    d ∉ as.flatMap WrittenAttribute.chars ++ trailing := by
  rw [← flatMap_start]
  refine List.not_mem_append (fun h => ?_) fun h => ?_
  · obtain ⟨a, ha, h⟩ := List.mem_flatMap.mp h
    obtain ⟨b, -, rfl⟩ := List.mem_map.mp ha
    exact b.start.not_mem_chars hd (not_mem_escapeQuoted (hd.imp_right Or.inl) _) h
  · have hblank := htrailing d h
    rcases hd with rfl | rfl <;> exact absurd hblank (by decide)

section

variable (as : List WrittenAttribute) {trailing : List Char}
  (htrailing : ∀ c ∈ trailing, isBlank c = true)
include htrailing

/-- Attributes and the blanks behind them begin with a blank. -/
theorem isBlank_head_attributes :
    ∀ c ∈ (as.flatMap WrittenAttribute.chars ++ trailing).head?, isBlank c = true := by
  rw [← flatMap_start]
  exact isBlank_head_startAttributes htrailing

/-- Attributes and the blanks behind them are visible. -/
theorem visible_attributes : visible (as.flatMap WrittenAttribute.chars ++ trailing) =
    as.flatMap WrittenAttribute.chars ++ trailing :=
  visible_eq_self (not_mem_attributes (Or.inr rfl) as htrailing)

/-- Attributes and the blanks behind them do not end with a slash. -/
theorem endsWithSlash_attributes :
    endsWithSlash (as.flatMap WrittenAttribute.chars ++ trailing) = false := by
  rw [← visible_attributes as htrailing, ← flatMap_start]
  exact endsWithSlash_visible (clear_written as) htrailing

/-- Attributes are read with the values that are written. -/
theorem fieldValues_attributes :
    fieldValues (as.flatMap WrittenAttribute.chars ++ trailing) =
      .ok (as.map fun a => (a.field, a.value)) := by
  -- The reader is given one blank more than the attributes begin with.
  have hcollect : collect attribute? (' ' :: (as.flatMap WrittenAttribute.chars ++ trailing)) =
      as.map fun a => (a.field, escapeQuoted a.value.toList) := by
    have hread := @collect_visible _ _ (clear_written as) [' ']
      (List.all_eq_true.mp (by decide)) htrailing
    rw [flatMap_start, visible_attributes as htrailing, List.filterMap_map] at hread
    refine hread.trans (List.filterMap_eq_map_iff_forall_eq_some.mpr fun a _ => ?_)
    rw [Function.comp_apply, StartAttribute.given?, a.field?_start]
    rfl
  rw [fieldValues, hcollect, List.mapM_map]
  refine mapM_eq_ok fun a _ => ?_
  simp only [Function.comp_apply, unescape_escapeQuoted, Except.map, String.ofList_toList]

end

end StylesheetTrace.Report
