import Mathlib.Data.Bool.AllAny
import Mathlib.Data.List.Nodup
import StylesheetTrace.Proofs.Report.Layout

/-!
# A truncated report read back

A report is written block by block: each block with a prefix or without, with its attributes in any
order, with a message that is escaped, without one, or closed at once, and with text between the
blocks that mentions no block. Of such a report the first `k` characters state what was written in
the blocks that end within them, the failed assertions first, then the successful reports
(`violations_take_chars`).

A block whose prefix begins with the name of the other kind is left out of this where a block of
that kind without a prefix comes later and ends before the cut: the two are read as one.
-/

namespace StylesheetTrace.Report

open StylesheetTrace.Text StylesheetTrace.Entity StylesheetTrace.Markup

/-! ## Writing a report -/

/-- What is written in a block: nothing, when its start tag closes it at once; blanks; or a message
and blanks around its element. -/
inductive ReportContent where
  | closed
  | blank (gap : List Char)
  | message (before : List Char) (text : String) (behind : List Char)

namespace ReportContent

/-- The message, if there is one. -/
def message? : ReportContent → Option String
  | message _ text _ => some text
  | _ => none

/-- The blanks around the message or in its place. -/
def gap : ReportContent → List Char
  | closed => []
  | blank gap => gap
  | message before _ behind => before ++ behind

/-- The content with the message escaped, in an element with the prefix of the block. -/
def encoded (qualifier : Option Qualifier) : ReportContent → Content
  | closed => .closed
  | blank gap => .gap gap
  | message before text behind => .message before qualifier (escapeQuoted text.toList) behind

end ReportContent

/-- A block of a report. -/
structure ReportBlock where
  /-- The kind of the block. -/
  kind : BlockKind
  /-- The prefix of its tags. -/
  qualifier : Option Qualifier
  /-- The attributes in their order. -/
  attributes : List WrittenAttribute
  /-- The blanks before the end of the start tag. -/
  trailing : List Char
  /-- What stands behind the start tag. -/
  content : ReportContent
  /-- Each attribute is given at most once. -/
  nodup : (attributes.map WrittenAttribute.field).Nodup
  /-- Behind the attributes stand only blanks. -/
  trailing_blank : ∀ c ∈ trailing, isBlank c = true
  /-- Around the element with the message stand only blanks. -/
  gap_blank : ∀ c ∈ content.gap, isBlank c = true
  /-- The message is one as it is read. -/
  normalized : ∀ m ∈ content.message?, Normalized m.toList

namespace ReportBlock

/-- The start tag closes the block at once. -/
def isClosed (b : ReportBlock) : Bool := (b.content.encoded b.qualifier).isClosed

/-- The attributes and the blanks behind them. -/
def attributeText (b : ReportBlock) : List Char :=
  b.attributes.flatMap WrittenAttribute.chars ++ b.trailing

/-- The inside of the start tag behind the name. -/
def inside (b : ReportBlock) : List Char :=
  b.attributeText ++ if b.isClosed then ['/'] else []

/-- The value of an attribute, if the block has it. -/
def value? (b : ReportBlock) (f : Field) : Option String :=
  (b.attributes.map fun a => (a.field, a.value)).lookup f

/-- The violation that the block states, if it has a message. -/
def violation? (b : ReportBlock) : Option Violation :=
  b.content.message?.map fun message =>
    { ruleId := (b.value? .id).filter fun id => !id.isEmpty
      flag := (b.value? .flag).getD "error"
      location := (b.value? .location).getD ""
      message }

/-- The prefix of the first block is taken for the name of the second, and its end tag for that of
the first. -/
def misleads (b c : ReportBlock) : Bool :=
  b.kind != c.kind && b.qualifier.any (passesFor c.kind.localName) && c.qualifier.isNone &&
    !b.isClosed && !c.isClosed

end ReportBlock

/-! ## The shape of a block -/

section

variable (b : ReportBlock)

/-- The blanks of a block hold no angle bracket. -/
theorem ReportBlock.lt_not_mem_gap : '<' ∉ b.content.gap :=
  fun h => absurd (b.gap_blank '<' h) (by decide)

/-- The content of a block has no angle bracket outside of tags. -/
theorem ReportBlock.plain : '<' ∉ (b.content.encoded b.qualifier).plain := by
  have hgap := b.lt_not_mem_gap
  cases hcontent : b.content with
  | closed => exact List.not_mem_nil
  | blank gap =>
    rw [hcontent] at hgap
    exact hgap
  | message before text behind =>
    rw [hcontent] at hgap
    obtain ⟨hbefore, hbehind⟩ : '<' ∉ before ∧ '<' ∉ behind := by
      simpa [ReportContent.gap] using hgap
    exact List.not_mem_append hbefore
      (List.not_mem_append (not_mem_escapeQuoted (Or.inl rfl) _) hbehind)

/-- The inside of the start tag holds no angle bracket. -/
theorem ReportBlock.not_mem_inside {d : Char} (hd : d = '<' ∨ d = '>') : d ∉ b.inside := by
  refine List.not_mem_append (not_mem_attributes hd b.attributes b.trailing_blank) ?_
  split <;> rcases hd with rfl | rfl <;> decide

/-- Behind the name of the block the start tag goes on with a blank or ends. -/
theorem ReportBlock.endsName_inside :
    endsName (b.inside ++ ['>']) = true ∧ endsWord (b.inside ++ ['>']) = true := by
  unfold ReportBlock.inside
  rw [List.append_assoc]
  refine endsName_append (isBlank_head_attributes b.attributes b.trailing_blank) ?_ ?_
  · split <;> rfl
  · split <;> rfl

/-- The start tag ends with a slash when it closes the block at once. -/
theorem ReportBlock.endsWithSlash_inside : endsWithSlash b.inside = b.isClosed := by
  unfold ReportBlock.inside
  cases b.isClosed with
  | false =>
    rw [if_neg Bool.false_ne_true, List.append_nil]
    exact endsWithSlash_attributes b.attributes b.trailing_blank
  | true => simp [endsWithSlash]

/-- The shape of the block. -/
def ReportBlock.shape : BlockShape :=
  { kind := b.kind
    qualifier := b.qualifier
    inside := b.inside
    content := b.content.encoded b.qualifier
    lt_not_mem := b.not_mem_inside (Or.inl rfl)
    gt_not_mem := b.not_mem_inside (Or.inr rfl)
    endsName := b.endsName_inside.1
    endsWord := b.endsName_inside.2
    endsWithSlash := b.endsWithSlash_inside
    plain := b.plain }

/-- The prefix of the message is that of its block, so that it changes nothing. -/
theorem ReportBlock.passesFor_shape (kind : BlockKind) :
    b.shape.passesFor kind = (!b.isClosed && b.qualifier.any (passesFor kind.localName)) := by
  have hqualifier : (b.qualifier.any (passesFor kind.localName) ||
      (b.content.encoded b.qualifier).qualifier?.any (passesFor kind.localName)) =
        b.qualifier.any (passesFor kind.localName) := by
    cases b.content with
    | closed => exact Bool.or_false _
    | blank gap => exact Bool.or_false _
    | message before text behind => exact Bool.or_self _
  exact congrArg (!b.isClosed && ·) hqualifier

/-- The shapes of two blocks mislead when the blocks do. -/
theorem ReportBlock.misleads_shape (c : ReportBlock) :
    b.shape.misleads c.shape = b.misleads c := by
  rw [BlockShape.misleads, ReportBlock.passesFor_shape]
  change (b.kind != c.kind && (!b.isClosed && b.qualifier.any (passesFor c.kind.localName)) &&
    (c.qualifier.isNone && !c.isClosed)) = b.misleads c
  rw [ReportBlock.misleads]
  ac_rfl

/-! ## What a block states -/

/-- A value that is given once is found. -/
theorem lookup_eq_some_iff {α : Type} {values : List (Field × α)}
    (h : (values.map Prod.fst).Nodup) {f : Field} {value : α} :
    values.lookup f = some value ↔ (f, value) ∈ values := by
  induction values with
  | nil => simp
  | cons p values ih =>
    obtain ⟨hp, h⟩ := List.nodup_cons.mp h
    rw [List.lookup_cons, List.mem_cons]
    by_cases hf : f = p.1
    · -- The field stands in no later pair.
      have hnot : (f, value) ∉ values := fun hmem => hp (hf ▸ List.mem_map_of_mem hmem)
      rw [beq_iff_eq.mpr hf, or_iff_left hnot]
      simp [hf, Prod.ext_iff, eq_comm]
    · rw [beq_eq_false_iff_ne.mpr hf]
      simp [ih h, hf, Prod.ext_iff]

/-- A value that is given once is the last one given. -/
theorem lastValue?_eq_lookup {values : List (Field × String)} (h : (values.map Prod.fst).Nodup)
    (f : Field) : lastValue? values f = values.lookup f := by
  have hrev : (values.reverse.map Prod.fst).Nodup := by
    rw [List.map_reverse]
    exact List.nodup_reverse.2 h
  ext value
  rw [lastValue?, lookup_eq_some_iff hrev, lookup_eq_some_iff h, List.mem_reverse]

/-- The message of a block is found as it is escaped. -/
theorem ReportContent.firstForm?_encoded {content : ReportContent} (h : '<' ∉ content.gap)
    (qualifier : Option Qualifier) :
    firstForm? textElement? (content.encoded qualifier).chars =
      content.message?.map fun m => escapeQuoted m.toList := by
  cases content with
  | closed => exact firstForm?_textElement?_of_not_mem h
  | blank gap => exact firstForm?_textElement?_of_not_mem h
  | message before text behind =>
    have hbefore : '<' ∉ before := fun hmem => h (List.mem_append_left behind hmem)
    exact firstForm?_messageElement rfl (not_mem_escapeQuoted (Or.inl rfl) _) hbefore

/-- A block that is closed at once has no message. -/
theorem ReportBlock.message?_of_isClosed (h : b.isClosed = true) : b.content.message? = none := by
  unfold ReportBlock.isClosed at h
  cases hcontent : b.content with
  | closed => rfl
  | blank gap => rfl
  | message before text behind =>
    rw [hcontent] at h
    exact absurd h Bool.false_ne_true

/-- The attributes of a block that is not closed at once are read as they are written. -/
theorem ReportBlock.lastValue?_eq (h : b.isClosed = false) :
    ∃ values, fieldValues b.inside = .ok values ∧ ∀ f, lastValue? values f = b.value? f := by
  have hinside : b.inside = b.attributeText := by
    rw [ReportBlock.inside, h, if_neg Bool.false_ne_true, List.append_nil]
  refine ⟨b.attributes.map fun a => (a.field, a.value), ?_, fun f => lastValue?_eq_lookup ?_ f⟩
  · exact hinside ▸ fieldValues_attributes b.attributes b.trailing_blank
  · rw [List.map_map]
    exact b.nodup

/-- A block states its violation. -/
theorem ReportBlock.states_shape : States b.shape b.violation? := by
  have hclosed : b.shape.content.isClosed = b.isClosed := rfl
  have hform : firstForm? textElement? b.shape.content.chars =
      b.content.message?.map fun m => escapeQuoted m.toList :=
    ReportContent.firstForm?_encoded b.lt_not_mem_gap b.qualifier
  unfold States
  split
  · rename_i h
    rw [ReportBlock.violation?, b.message?_of_isClosed (hclosed ▸ h)]
    rfl
  · rename_i h
    intro tail
    obtain ⟨values, hvalues, hlast⟩ := b.lastValue?_eq (Bool.eq_false_iff.mpr h)
    unfold Report.violation?
    rw [hform, ReportBlock.violation?]
    cases hmessage : b.content.message? with
    | none => rfl
    | some m =>
      have hvalues' : fieldValues b.shape.inside = .ok values := hvalues
      have hread := messageText_escapeQuoted (b.normalized m (Option.mem_def.mpr hmessage))
      rw [String.ofList_toList] at hread
      simp only [Option.map_some, hvalues', hread, hlast, bind, Except.bind]
      rfl

end

/-! ## Truncated reports -/

/-- A report. -/
structure WrittenReport where
  /-- The text before the blocks. -/
  lead : List Char
  /-- The blocks, each with the text behind it. -/
  items : List (ReportBlock × List Char)
  /-- Between the blocks the name of none is mentioned. -/
  unmentioned : ∀ kind : BlockKind, ∀ t ∈ lead :: items.map Prod.snd,
    ¬ kind.tagName.toList <:+: t

namespace WrittenReport

/-- The characters of the report. -/
def chars (r : WrittenReport) : List Char := r.lead ++ layout ReportBlock.shape r.items

/-- The blocks that end within the first `k` characters. -/
def complete (r : WrittenReport) (k : Nat) : List ReportBlock :=
  Report.complete ReportBlock.shape k r.lead.length r.items

end WrittenReport

/-- The first `k` characters of a report state what was written in the blocks that end within them:
the failed assertions in their order, then the successful reports. None of these blocks may mislead
to a later one. -/
theorem violations_take_chars (r : WrittenReport) {k : Nat} {limit : Int} (hk : (k : Int) ≤ limit)
    (hclear : (r.complete k).Pairwise fun b c => b.misleads c = false) :
    violations limit (String.ofList (r.chars.take k)) =
      .ok (BlockKind.all.flatMap fun kind =>
        ((r.complete k).filter fun b => b.kind == kind).filterMap ReportBlock.violation?) := by
  refine violations_take (fun kind => kind.tagName_toList ▸ r.unmentioned kind) ?_
    (fun i _ => i.1.states_shape) hk
  exact hclear.imp fun h => (ReportBlock.misleads_shape ..).trans h

/-- The prefix `failed-assert` is taken for the name, and the end tag of the second block for that
of the first: the second is not read, and the first is read twice. -/
example : violations 1000 ("<failed-assert:successful-report id='A'><failed-assert:text>one" ++
    "</failed-assert:text></failed-assert:successful-report>" ++
    "<failed-assert id='B'><text>two</text></failed-assert>") =
      .ok [⟨some "A", "error", "", "one"⟩, ⟨some "A", "error", "", "one"⟩] := by
  decide +kernel

/-- A block of a small report, with an identifier, a flag and a message that has to be escaped. -/
def sampleFinding (kind : BlockKind) (id : String) : ReportBlock where
  kind
  qualifier := some ⟨"rep".toList, by decide, List.all_eq_true.mp (by decide)⟩
  attributes :=
    [⟨.flag, .single, "info", ['\t'], [], [], by decide, List.all_eq_true.mp (by decide)⟩,
      ⟨.id, .double, id, ['\n', ' '], [' '], [], by decide, List.all_eq_true.mp (by decide)⟩]
  trailing := []
  content := .message ['\n'] "1 < 2 & more" ['\n', ' ']
  nodup := by simp
  trailing_blank := List.forall_mem_nil _
  gap_blank := List.all_eq_true.mp (by decide)
  normalized := by
    rintro m ⟨⟩
    exact
      { eq_space := List.all_iff_forall_prop.mp (by decide)
        single := by decide
        head := by rintro c ⟨⟩; rfl
        last := by rintro c ⟨⟩; rfl }

/-- A block of a small report that is closed at once. -/
def sampleClosed : ReportBlock where
  kind := .failedAssert
  qualifier := none
  attributes := []
  trailing := ['\t', ' ']
  content := .closed
  nodup := by decide
  trailing_blank := List.all_eq_true.mp (by decide)
  gap_blank := List.forall_mem_nil _
  normalized := by simp [ReportContent.message?]

/-- A report of four blocks. -/
def sampleReport : WrittenReport where
  lead := "<rep:output>\n".toList
  items := [(sampleFinding .successfulReport "", ['\n']), (sampleClosed, []),
    (sampleFinding .failedAssert "R2", " and ".toList), (sampleFinding .failedAssert "R3", [])]
  unmentioned kind := by cases kind <;> decide

/-- Of four blocks two have a message and end before the cut. -/
theorem violations_take_chars_sample :
    violations 1000 (String.ofList (sampleReport.chars.take 300)) =
      .ok [⟨some "R2", "info", "", "1 < 2 & more"⟩, ⟨none, "info", "", "1 < 2 & more"⟩] := by
  have hcomplete : sampleReport.complete 300 =
      [sampleFinding .successfulReport "", sampleClosed, sampleFinding .failedAssert "R2"] := rfl
  have hclear : (sampleReport.complete 300).Pairwise fun b c => b.misleads c = false := by
    rw [hcomplete]
    decide
  rw [violations_take_chars sampleReport (by decide) hclear, hcomplete]
  rfl

end StylesheetTrace.Report
