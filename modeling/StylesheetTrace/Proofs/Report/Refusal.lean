import StylesheetTrace.Proofs.Location.Path
import StylesheetTrace.Report.Assertion

/-!
# Assertion reports that are refused

The size of a report is checked before it is searched, and no text that is small enough is refused
for its structure. Numbers are read in three places: in the references of the attributes, in those
of the message and, once a block has become a violation, in the location of the violation. A report
is refused when one of these is too long (`LongNumber`), in a block that has a message at all.
-/

namespace StylesheetTrace.Report

open StylesheetTrace.Text StylesheetTrace.Entity StylesheetTrace.Location

/-- A block with a message has a reference that is too long, in the value of an attribute or in the
message. -/
def Block.LongText (b : Block) : Prop :=
  ∃ body, firstForm? textElement? b.body = some body ∧
    ((∃ v ∈ collect attribute? (' ' :: b.attributes), LongReference v.2) ∨
      LongReference (erase innerTag? body))

/-- A block has a number that is too long: in a reference, or in the location of the violation that
it states. -/
def Block.LongNumber (b : Block) : Prop :=
  b.LongText ∨ ∃ v, violation? b = .ok (some v) ∧ LongPath v.location

/-- The values of attributes are read unless a reference in one of them is too long. -/
theorem hasResult_fieldValues {attributes : List Char} :
    HasResult (fieldValues attributes) ↔
      ∀ v ∈ collect attribute? (' ' :: attributes), ¬ LongReference v.2 := by
  rw [fieldValues, hasResult_mapM]
  refine forall₂_congr fun v _ => ?_
  rw [hasResult_map, hasResult_unescape]

/-- A block is read unless a reference in it is too long. -/
theorem hasResult_violation? {b : Block} : HasResult (violation? b) ↔ ¬ b.LongText := by
  unfold violation? Block.LongText
  split
  · rename_i hnone
    refine iff_of_true ⟨none, rfl⟩ ?_
    simp [hnone]
  · rename_i body hbody
    have hmessage : HasResult (messageText body) ↔ ¬ LongReference (erase innerTag? body) := by
      rw [messageText, hasResult_map, hasResult_unescape]
    -- The message does not depend on the values of the attributes.
    rw [hasResult_bind]
    simp only [hasResult_bind_pure, hmessage, exists_and_right]
    change HasResult (fieldValues b.attributes) ∧ _ ↔ _
    rw [hasResult_fieldValues]
    simp [hbody]

/-- A report is read up to its violations unless it is too large or a reference in one of its
blocks is too long. -/
theorem hasResult_violations {limit : Int} {report : String} :
    HasResult (violations limit report) ↔
      (report.length : Int) ≤ limit ∧ ∀ b ∈ blocks report, ¬ b.2.LongText := by
  unfold violations
  split
  · rename_i hlarge
    refine iff_of_false (by simp [HasResult]) fun h => absurd h.1 (Int.not_le.mpr hlarge)
  · rename_i hsmall
    rw [hasResult_mapError, hasResult_map, hasResult_mapM]
    simp only [hasResult_violation?]
    exact (and_iff_right (Int.not_lt.mp hsmall)).symm

/-- What is refused for a number is not refused for a size. -/
theorem mapError_number_ne_tooLarge {α : Type} {x : Except TooLong α} {size : Nat} {limit : Int} :
    x.mapError InputError.number ≠ .error (.tooLarge size limit) := by
  intro h
  obtain ⟨e, -, he⟩ := mapError_eq_error.mp h
  exact absurd he (by simp)

/-- A report is refused for its size when it is too large. -/
theorem violations_eq_tooLarge {limit bound : Int} {report : String} {size : Nat} :
    violations limit report = .error (.tooLarge size bound) ↔
      limit < report.length ∧ size = report.length ∧ bound = limit := by
  unfold violations
  split
  · rename_i hlarge
    simp only [Except.error.injEq, InputError.tooLarge.injEq]
    exact ⟨fun h => ⟨hlarge, h.1.symm, h.2.symm⟩, fun h => ⟨h.2.1.symm, h.2.2.symm⟩⟩
  · rename_i hsmall
    exact iff_of_false mapError_number_ne_tooLarge fun h => hsmall h.1

/-- The violations of a report are those that its blocks state. -/
theorem mem_violations {limit : Int} {report : String} {vs : List Violation}
    (h : violations limit report = .ok vs) {v : Violation} :
    v ∈ vs ↔ ∃ b ∈ blocks report, violation? b.2 = .ok (some v) := by
  unfold violations at h
  split at h
  · exact absurd h (by simp)
  · obtain ⟨found, hfound, rfl⟩ := map_eq_ok.mp (mapError_eq_ok.mp h)
    rw [List.mem_filterMap]
    simp only [id_eq, exists_eq_right]
    exact mem_mapM_eq_ok hfound

/-- The issues that violations stand for are read unless a location is too long. -/
theorem hasResult_issuesOf {source : Source} {docLines : List String} {vs : List Violation} :
    HasResult (issuesOf source docLines vs) ↔ ∀ v ∈ vs, ¬ LongPath v.location := by
  rw [issuesOf, hasResult_mapM]
  refine forall₂_congr fun v _ => ?_
  rw [issueOf, hasResult_map, hasResult_steps]

end StylesheetTrace.Report
