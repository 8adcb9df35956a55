import StylesheetTrace.Proofs.Finding.Soundness

/-!
# The order in which entries are recorded

Entries are traced in the order of their lines, and only entries of one line in the order in which
they were recorded. So the order in which entries of different lines were recorded does not matter
(`traceIssues_reordered`). The reason is that the sorted entries are the only list in the order of
lines that keeps the entries of each line as they are (`eq_of_filter_line`): every issue is traced
with that list, and with nothing else of the entries.
-/

namespace StylesheetTrace.Finding

/-- The entries of each line are the same, in the same order. -/
def Reordered (ds es : List TraceEntry) : Prop :=
  ∀ k, (ds.filter fun e => e.outputLine == k) = es.filter fun e => e.outputLine == k

section

variable {ds es : List TraceEntry}

/-- Reordered entries are the same entries. -/
theorem Reordered.mem_iff (h : Reordered ds es) {e : TraceEntry} : e ∈ ds ↔ e ∈ es := by
  have hline : ∀ xs : List TraceEntry,
      e ∈ xs ↔ e ∈ xs.filter fun d => d.outputLine == e.outputLine := by
    intro xs
    rw [List.mem_filter, and_iff_left (beq_self_eq_true _)]
  rw [hline ds, hline es, h e.outputLine]

/-- Without the first entry the entries of each line are still the same. -/
theorem Reordered.tail {e : TraceEntry} (h : Reordered (e :: ds) (e :: es)) : Reordered ds es := by
  intro k
  have hk := h k
  by_cases hline : (e.outputLine == k) = true
  · rw [List.filter_cons, if_pos hline, List.filter_cons, if_pos hline] at hk
    exact (List.cons.inj hk).2
  · rwa [List.filter_cons, if_neg hline, List.filter_cons, if_neg hline] at hk

/-- In the order of lines there is only one list with the same entries on each line. -/
theorem eq_of_filter_line (hds : ds.Pairwise fun d e => d.outputLine ≤ e.outputLine)
    (hes : es.Pairwise fun d e => d.outputLine ≤ e.outputLine) (h : Reordered ds es) : ds = es := by
  induction ds generalizing es with
  | nil =>
    refine (List.eq_nil_iff_forall_not_mem.mpr fun e he => ?_).symm
    exact absurd (h.mem_iff.mpr he) List.not_mem_nil
  | cons d ds ih =>
    cases es with
    | nil => exact absurd (h.mem_iff.mp List.mem_cons_self) List.not_mem_nil
    | cons e es =>
      rw [List.pairwise_cons] at hds hes
      -- The first entries are on the same line, since each of them stands in both lists.
      have hde : d.outputLine ≤ e.outputLine := by
        rcases List.mem_cons.mp (h.mem_iff.mpr List.mem_cons_self) with rfl | he
        · exact Nat.le_refl _
        · exact hds.1 e he
      have hed : e.outputLine ≤ d.outputLine := by
        rcases List.mem_cons.mp (h.mem_iff.mp List.mem_cons_self) with rfl | hd
        · exact Nat.le_refl _
        · exact hes.1 d hd
      have hline : (e.outputLine == d.outputLine) = true := beq_iff_eq.mpr (Nat.le_antisymm hed hde)
      -- So both are the first of that line, on which the lists agree.
      have hfirst := h d.outputLine
      rw [List.filter_cons, if_pos (beq_self_eq_true _), List.filter_cons, if_pos hline] at hfirst
      obtain rfl := (List.cons.inj hfirst).1
      rw [ih hds.2 hes.2 h.tail]

/-- Reordered entries are sorted into the same list. -/
theorem Reordered.sorted_eq (h : Reordered ds es) : sorted ds = sorted es := by
  refine eq_of_filter_line (pairwise_sorted ds) (pairwise_sorted es) fun k => ?_
  rw [filter_line_sorted, filter_line_sorted, h k]

/-- Sorting reorders the entries. -/
theorem reordered_sorted (es : List TraceEntry) : Reordered (sorted es) es :=
  filter_line_sorted es

/-- Issues are traced alike with reordered entries: what is read of the entries is whether there are
any and what they are sorted into. -/
theorem Reordered.traceIssues_eq (h : Reordered ds es) (table : RuleTable) (roots : List String)
    (output : Option String) (issues : List Issue) :
    traceIssues table roots ds output issues = traceIssues table roots es output issues := by
  have hempty : ds.isEmpty = es.isEmpty := by
    rw [Bool.eq_iff_iff, List.isEmpty_iff, List.isEmpty_iff, List.eq_nil_iff_forall_not_mem,
      List.eq_nil_iff_forall_not_mem]
    exact forall_congr' fun e => not_congr h.mem_iff
  unfold traceIssues
  rw [hempty, h.sorted_eq]

end

/-- Issues are traced alike whatever the order in which entries of different lines were recorded, and
in particular with the entries in the order of their lines. -/
theorem traceIssues_reordered {ds es : List TraceEntry}
    (h : ∀ k, (ds.filter fun e => e.outputLine == k) = es.filter fun e => e.outputLine == k)
    (table : RuleTable) (roots : List String) (output : Option String) (issues : List Issue) :
    traceIssues table roots ds output issues = traceIssues table roots es output issues ∧
      traceIssues table roots (sorted es) output issues =
        traceIssues table roots es output issues :=
  ⟨Reordered.traceIssues_eq h table roots output issues,
    (reordered_sorted es).traceIssues_eq table roots output issues⟩

/-- Two entries of the third line and one of the first, as they are recorded. -/
def recordedEntries : List TraceEntry :=
  [⟨3, "a.xsl", 7, "x:amount"⟩, ⟨1, "a.xsl", 2, "order"⟩, ⟨3, "a.xsl", 9, "x:note"⟩]

/-- The same entries in the order of their lines. -/
def orderedEntries : List TraceEntry :=
  [⟨1, "a.xsl", 2, "order"⟩, ⟨3, "a.xsl", 7, "x:amount"⟩, ⟨3, "a.xsl", 9, "x:note"⟩]

/-- With the entry of the first line recorded before or between the others, an issue on the fourth
line has the origin of the last entry of the third, and one about an element that of the entry for
it. -/
theorem traceIssues_reordered_recordedEntries :
    (∀ k, (orderedEntries.filter fun e => e.outputLine == k) =
      recordedEntries.filter fun e => e.outputLine == k) ∧
    traceIssues .empty [] recordedEntries none
        [⟨4, 0, "is wrong", .error, none, .xsd⟩, ⟨4, 0, "Element 'amount'", .error, none, .xsd⟩] =
      [⟨⟨4, 0, "is wrong", .error, none, .xsd⟩, some ⟨"a.xsl", 9, "x:note"⟩⟩,
        ⟨⟨3, 0, "Element 'amount'", .error, none, .xsd⟩, some ⟨"a.xsl", 7, "x:amount"⟩⟩] := by
  have hline : ∀ k, (orderedEntries.filter fun e => e.outputLine == k) =
      recordedEntries.filter fun e => e.outputLine == k := by
    intro k
    by_cases hk : k = 3
    · subst hk
      rfl
    · have hthird : ((3 : Nat) == k) = false := beq_eq_false_iff_ne.mpr (Ne.symm hk)
      simp [orderedEntries, recordedEntries, List.filter_cons, hthird]
  have hsorted : sorted orderedEntries = orderedEntries := List.mergeSort_of_pairwise (by decide)
  refine ⟨hline, ?_⟩
  rw [← (traceIssues_reordered hline .empty [] none _).1, traceIssues, hsorted]
  decide +kernel

end StylesheetTrace.Finding
