import Mathlib.Data.List.Basic
import Mathlib.Data.List.Forall2
import StylesheetTrace.Finding.Mapping

/-!
# What a traced issue may say

Whatever the entries, the names and the output are, every issue is traced soundly
(`traceIssues_isTrace`): only its line changes, and its origin is that of an entry at or before that
line. Which entry it is depends on the entries alone, taken in the order of their lines and on one
line in the order in which they were recorded. That order is stated here without the sort that
computes it (`IsFirst`, `IsLast`); that the sort is stable links the two (`filter_line_sorted`).
-/

namespace StylesheetTrace.Finding

/-! ## The order of entries -/

/-- The entry is the first with `p` in the order of lines: no other with `p` is on an earlier line,
and none that was recorded before it is on its line. -/
def IsFirst (p : TraceEntry → Prop) (entries : List TraceEntry) (e : TraceEntry) : Prop :=
  p e ∧ ∃ before after, entries = before ++ e :: after ∧
    (∀ d ∈ before, p d → e.outputLine < d.outputLine) ∧
    ∀ d ∈ after, p d → e.outputLine ≤ d.outputLine

/-- The entry is the last with `p` in the order of lines: no other with `p` is on a later line, and
none that was recorded after it is on its line. -/
def IsLast (p : TraceEntry → Prop) (entries : List TraceEntry) (e : TraceEntry) : Prop :=
  p e ∧ ∃ before after, entries = before ++ e :: after ∧
    (∀ d ∈ before, p d → d.outputLine ≤ e.outputLine) ∧
    ∀ d ∈ after, p d → d.outputLine < e.outputLine

section

variable {entries : List TraceEntry} {p : TraceEntry → Bool} {e : TraceEntry}

/-- Sorting keeps the entries. -/
@[simp]
theorem mem_sorted : e ∈ sorted entries ↔ e ∈ entries :=
  (List.mergeSort_perm entries _).mem_iff

/-- The order of lines is transitive. -/
theorem outputLine_le_trans (a b c : TraceEntry) (hab : decide (a.outputLine ≤ b.outputLine) = true)
    (hbc : decide (b.outputLine ≤ c.outputLine) = true) :
    decide (a.outputLine ≤ c.outputLine) = true :=
  decide_eq_true (Nat.le_trans (of_decide_eq_true hab) (of_decide_eq_true hbc))

/-- Of two entries one is at or before the line of the other. -/
theorem outputLine_le_total (a b : TraceEntry) :
    (decide (a.outputLine ≤ b.outputLine) || decide (b.outputLine ≤ a.outputLine)) = true := by
  rw [Bool.or_eq_true, decide_eq_true_eq, decide_eq_true_eq]
  exact Nat.le_total _ _

/-- The lines of sorted entries do not decrease. -/
theorem pairwise_sorted (entries : List TraceEntry) :
    (sorted entries).Pairwise fun d e => d.outputLine ≤ e.outputLine :=
  (List.pairwise_mergeSort outputLine_le_trans outputLine_le_total entries).imp of_decide_eq_true

/-- The sort is stable: the entries of one line keep their order. -/
theorem filter_line_sorted (entries : List TraceEntry) (k : Nat) :
    (sorted entries).filter (fun d => d.outputLine == k) =
      entries.filter fun d => d.outputLine == k := by
  -- The entries of one line stand in order already, so that the sort leaves them as they are; and
  -- it has no other entry of that line.
  have hline : (entries.filter fun d => d.outputLine == k).Pairwise
      fun a b => decide (a.outputLine ≤ b.outputLine) = true := by
    refine List.pairwise_of_forall_mem_list fun a ha b hb => ?_
    have hak := beq_iff_eq.mp (List.mem_filter.mp ha).2
    have hbk := beq_iff_eq.mp (List.mem_filter.mp hb).2
    exact decide_eq_true (by omega)
  have hsublist : (entries.filter fun d => d.outputLine == k).Sublist (sorted entries) :=
    List.sublist_mergeSort outputLine_le_trans outputLine_le_total hline List.filter_sublist
  have hfiltered := hsublist.filter fun d => d.outputLine == k
  rw [List.filter_filter] at hfiltered
  simp only [Bool.and_self] at hfiltered
  have hlength := ((List.mergeSort_perm entries fun a b =>
    decide (a.outputLine ≤ b.outputLine)).filter fun d => d.outputLine == k).length_eq
  exact (hfiltered.eq_of_length hlength.symm).symm

/-- A search among the entries of one line. -/
theorem find?_filter_line (p : TraceEntry → Bool) (k : Nat) (l : List TraceEntry) :
    (l.filter fun d => d.outputLine == k).find? p =
      l.find? fun d => d.outputLine == k && p d := by
  rw [List.find?_filter]
  simp only [Bool.decide_and, Bool.decide_eq_true]

/-- The first of the sorted entries with `p` is the first in the order of lines. -/
theorem isFirst_of_find? (h : (sorted entries).find? p = some e) :
    IsFirst (fun d => p d = true) entries e := by
  obtain ⟨hp, as, bs, hsorted, has⟩ := List.find?_eq_some_iff_append.mp h
  have hpairwise := pairwise_sorted entries
  rw [hsorted, List.pairwise_append, List.pairwise_cons] at hpairwise
  -- No entry with `p` is on an earlier line, since the sorted ones before `e` do not have it.
  have hle : ∀ d ∈ entries, p d = true → e.outputLine ≤ d.outputLine := by
    intro d hd hpd
    rw [← mem_sorted, hsorted, List.mem_append, List.mem_cons] at hd
    rcases hd with hd | rfl | hd
    · exact absurd hpd (by simpa using has d hd)
    · exact Nat.le_refl _
    · exact hpairwise.2.1.1 d hd
  -- On its own line it is the first with `p` also in the order in which they were recorded.
  have hline : entries.find? (fun d => d.outputLine == e.outputLine && p d) = some e := by
    rw [← find?_filter_line, ← filter_line_sorted, find?_filter_line]
    refine List.find?_eq_some_iff_append.mpr ⟨by simp [hp], as, bs, hsorted, fun d hd => ?_⟩
    have hnot := has d hd
    simp only [Bool.not_eq_eq_eq_not, Bool.not_true] at hnot
    simp [hnot]
  obtain ⟨-, before, after, rfl, hbefore⟩ := List.find?_eq_some_iff_append.mp hline
  refine ⟨hp, before, after, rfl, fun d hd hpd => ?_, fun d hd hpd => ?_⟩
  · have hne : d.outputLine ≠ e.outputLine := by
      have hnot := hbefore d hd
      simpa [hpd] using hnot
    have hd' := hle d (List.mem_append_left _ hd) hpd
    omega
  · exact hle d (List.mem_append_right _ (List.mem_cons_of_mem e hd)) hpd

/-- The last of the sorted entries with `p` is the last in the order of lines. -/
theorem isLast_of_getLast? (h : ((sorted entries).filter p).getLast? = some e) :
    IsLast (fun d => p d = true) entries e := by
  rw [List.getLast?_filter] at h
  obtain ⟨hp, as, bs, hreverse, has⟩ := List.find?_eq_some_iff_append.mp h
  have hsorted : sorted entries = bs.reverse ++ e :: as.reverse := by
    have hback := congrArg List.reverse hreverse
    simpa using hback
  have hpairwise := pairwise_sorted entries
  rw [hsorted, List.pairwise_append] at hpairwise
  -- No entry with `p` is on a later line, since the sorted ones behind `e` do not have it.
  have hle : ∀ d ∈ entries, p d = true → d.outputLine ≤ e.outputLine := by
    intro d hd hpd
    rw [← mem_sorted, hsorted, List.mem_append, List.mem_cons] at hd
    rcases hd with hd | rfl | hd
    · exact hpairwise.2.2 d hd e List.mem_cons_self
    · exact Nat.le_refl _
    · exact absurd hpd (by simpa using has d (List.mem_reverse.mp hd))
  -- On its own line it is the last with `p` also in the order in which they were recorded.
  have hline : entries.reverse.find? (fun d => d.outputLine == e.outputLine && p d) = some e := by
    rw [← find?_filter_line, List.filter_reverse, ← filter_line_sorted, ← List.filter_reverse,
      find?_filter_line]
    refine List.find?_eq_some_iff_append.mpr ⟨by simp [hp], as, bs, hreverse, fun d hd => ?_⟩
    have hnot := has d hd
    simp only [Bool.not_eq_eq_eq_not, Bool.not_true] at hnot
    simp [hnot]
  obtain ⟨-, after, before, hentries, hafter⟩ := List.find?_eq_some_iff_append.mp hline
  have hback : entries = before.reverse ++ e :: after.reverse := by
    have hback := congrArg List.reverse hentries
    simpa using hback
  refine ⟨hp, before.reverse, after.reverse, hback, fun d hd hpd => ?_, fun d hd hpd => ?_⟩
  · refine hle d ?_ hpd
    rw [hback]
    exact List.mem_append_left _ hd
  · have hne : d.outputLine ≠ e.outputLine := by
      have hnot := hafter d (List.mem_reverse.mp hd)
      simpa [hpd] using hnot
    have hmem : d ∈ entries := by
      rw [hback]
      exact List.mem_append_right _ (List.mem_cons_of_mem e hd)
    have hd' := hle d hmem hpd
    omega

/-- The last entry of those with `p` is one of the entries. -/
theorem IsLast.mem {p : TraceEntry → Prop} (h : IsLast p entries e) : e ∈ entries := by
  obtain ⟨-, before, after, rfl, -, -⟩ := h
  exact List.mem_append_right before List.mem_cons_self

/-! ## The nearest entry and the named entry -/

/-- The nearest entry is the last, in the order of lines, of those at or before the line. -/
theorem isLast_of_nearest? {line : Nat} (h : nearest? (sorted entries) line = some e) :
    IsLast (fun d => d.outputLine ≤ line) entries e := by
  have hlast := isLast_of_getLast? h
  simpa only [decide_eq_true_eq] using hlast

/-- Without a nearest entry every entry is behind the line. -/
theorem nearest?_eq_none {line : Nat} (h : nearest? (sorted entries) line = none) :
    ∀ d ∈ entries, line < d.outputLine := by
  rw [nearest?, List.getLast?_eq_none_iff, List.filter_eq_nil_iff] at h
  intro d hd
  have hnot := h d (mem_sorted.mpr hd)
  simpa using hnot

/-- The name is the first that is the local name of an entry. -/
def FirstBorne (entries : List TraceEntry) (names : List String) (n : String) : Prop :=
  (∃ e ∈ entries, e.localName = n) ∧ ∃ before after, names = before ++ n :: after ∧
    ∀ m ∈ before, ∀ e ∈ entries, e.localName ≠ m

/-- The entry found by name is the first, in the order of lines, of the first name that is borne. -/
theorem namedEntry?_of_firstBorne {names : List String} {n : String}
    (h : FirstBorne entries names n) :
    ∃ e, namedEntry? (sorted entries) names = some e ∧
      IsFirst (fun d => d.localName = n) entries e := by
  obtain ⟨⟨d, hd, hdn⟩, before, after, rfl, hbefore⟩ := h
  have hskip : before.findSome? (fun m => (sorted entries).find? fun e => e.localName == m) =
      none := by
    rw [List.findSome?_eq_none_iff]
    intro m hm
    rw [List.find?_eq_none]
    intro e he
    simpa using hbefore m hm e (mem_sorted.mp he)
  have hfound : ((sorted entries).find? fun e => e.localName == n).isSome = true := by
    rw [List.find?_isSome]
    exact ⟨d, mem_sorted.mpr hd, beq_iff_eq.mpr hdn⟩
  obtain ⟨e, he⟩ := Option.isSome_iff_exists.mp hfound
  refine ⟨e, ?_, ?_⟩
  · unfold namedEntry?
    rw [List.findSome?_append, hskip, Option.none_or, List.findSome?_cons, he]
  · have hfirst := isFirst_of_find? he
    simpa only [beq_iff_eq] using hfirst

/-- An entry that is found by name is one of the entries, and some name is the first to be borne. -/
theorem firstBorne_of_namedEntry? {names : List String}
    (h : namedEntry? (sorted entries) names = some e) :
    e ∈ entries ∧ ∃ n, FirstBorne entries names n := by
  obtain ⟨before, n, after, rfl, hfind, hskip⟩ := List.findSome?_eq_some_iff.mp h
  have he : e ∈ entries := mem_sorted.mp (List.mem_of_find?_eq_some hfind)
  refine ⟨he, n, ⟨e, he, by simpa using List.find?_some hfind⟩, before, after, rfl, ?_⟩
  intro m hm d hd
  have hnot := List.find?_eq_none.mp (hskip m hm) d (mem_sorted.mpr hd)
  simpa using hnot

end

/-! ## Traced issues -/

/-- What a traced issue says of an issue about elements with the given names: the issue is the same
but for its line, and its origin is that of an entry at or before this line. If a name is borne by
an entry, the first such name decides: the entry is the first that bears it, and the issue is on its
line. Otherwise the entry is the last one at or before the line of the issue. An issue behind some
entry has no origin only where it was left on one of the first two lines. -/
structure IsTrace (entries : List TraceEntry) (names : List String) (issue : Issue)
    (t : TracedIssue) : Prop where
  /-- Nothing of the issue changes but its line. -/
  same : t.issue = { issue with line := t.issue.line }
  /-- The origin is that of an entry at or before the line. -/
  origin : ∀ o ∈ t.origin, ∃ e ∈ entries, o = e.origin ∧ e.outputLine ≤ t.issue.line
  /-- The first name that an entry bears decides for the first entry that bears it. -/
  named : ∀ n, FirstBorne entries names n → ∃ e, IsFirst (fun d => d.localName = n) entries e ∧
    t.origin = some e.origin ∧ t.issue.line = e.outputLine
  /-- If no entry bears a name, the last entry at or before the line decides. -/
  unnamed : (∀ n ∈ names, ∀ e ∈ entries, e.localName ≠ n) → ∀ o ∈ t.origin,
    ∃ e, IsLast (fun d => d.outputLine ≤ t.issue.line) entries e ∧ o = e.origin
  /-- An issue behind some entry has no origin only on one of the first two lines. -/
  untraced : t.origin = none → (∃ e ∈ entries, e.outputLine ≤ t.issue.line) →
    t.issue.line = issue.line ∧ issue.line ≤ degenerateLines

section

variable {entries : List TraceEntry} {names : List String}

/-- An issue about names that no entry bears is traced soundly when it is put on a line with the
origin of the nearest entry. -/
theorem isTrace_placed (hnone : ¬ ∃ n, FirstBorne entries names n) (issue : Issue) (line : Nat) :
    IsTrace entries names issue
      (placed (.ofIssue issue) line (nearest? (sorted entries) line)) where
  same := rfl
  origin := by
    intro o ho
    cases hnearest : nearest? (sorted entries) line with
    | none => simp [placed, TracedIssue.ofIssue, hnearest] at ho
    | some e =>
      obtain rfl : e.origin = o := by simpa [placed, hnearest] using ho
      have hlast := isLast_of_nearest? hnearest
      exact ⟨e, hlast.mem, rfl, hlast.1⟩
  named n hn := absurd ⟨n, hn⟩ hnone
  unnamed := by
    intro _ o ho
    cases hnearest : nearest? (sorted entries) line with
    | none => simp [placed, TracedIssue.ofIssue, hnearest] at ho
    | some e =>
      obtain rfl : e.origin = o := by simpa [placed, hnearest] using ho
      exact ⟨e, isLast_of_nearest? hnearest, rfl⟩
  untraced := by
    rintro horigin ⟨d, hd, hle⟩
    -- With an entry at or before the line there is a nearest one.
    cases hnearest : nearest? (sorted entries) line with
    | none => exact absurd hle (Nat.not_le.mpr (nearest?_eq_none hnearest d hd))
    | some e => simp [placed, hnearest] at horigin

/-- An issue about names that no entry bears is traced soundly when it stays on its line without an
origin, provided that this is one of the first lines or that no entry stands at or before it. -/
theorem isTrace_ofIssue (hnone : ¬ ∃ n, FirstBorne entries names n) {issue : Issue}
    (h : issue.line ≤ degenerateLines ∨ ∀ e ∈ entries, issue.line < e.outputLine) :
    IsTrace entries names issue (.ofIssue issue) where
  same := rfl
  origin o ho := absurd ho (by simp [TracedIssue.ofIssue])
  named n hn := absurd ⟨n, hn⟩ hnone
  unnamed _ o ho := absurd ho (by simp [TracedIssue.ofIssue])
  untraced := by
    rintro - ⟨e, he, hle⟩
    exact ⟨rfl, h.resolve_right fun hbehind => absurd (hbehind e he) (Nat.not_lt.mpr hle)⟩

/-- An issue is traced soundly with sorted entries. -/
theorem isTrace_traceTo (lines : List String) (issue : Issue) :
    IsTrace entries names issue (traceTo (sorted entries) lines names (.ofIssue issue)) := by
  unfold traceTo
  cases hentry : namedEntry? (sorted entries) names with
  | some e =>
    obtain ⟨he, n, hn⟩ := firstBorne_of_namedEntry? hentry
    refine ⟨rfl, ?_, ?_, ?_, ?_⟩
    · intro o ho
      obtain rfl : e.origin = o := by simpa [placed] using ho
      exact ⟨e, he, rfl, Nat.le_refl _⟩
    · intro m hm
      obtain ⟨d, hd, hfirst⟩ := namedEntry?_of_firstBorne hm
      obtain rfl : d = e := Option.some.inj (hd.symm.trans hentry)
      exact ⟨d, hfirst, rfl, rfl⟩
    · intro hunborne
      obtain ⟨⟨d, hd, hdn⟩, before, after, rfl, -⟩ := hn
      exact absurd hdn (hunborne n (List.mem_append_right before List.mem_cons_self) d hd)
    · intro horigin
      simp [placed] at horigin
  | none =>
    have hnone : ¬ ∃ n, FirstBorne entries names n := by
      rintro ⟨n, hn⟩
      obtain ⟨e, he, -⟩ := namedEntry?_of_firstBorne hn
      rw [hentry] at he
      exact absurd he (by simp)
    cases namedLine? lines names with
    | some line => exact isTrace_placed hnone issue line
    | none =>
      simp only [linked]
      split
      · rename_i hline
        exact isTrace_ofIssue hnone (Or.inl hline)
      · exact isTrace_placed hnone issue issue.line

end

/-! ## The line of a traced issue -/

/-- A name is opened on one of the lines that are searched. -/
theorem openingLine?_within {name : String} {lines : List String} {k : Nat}
    (h : openingLine? name lines = some k) : 1 ≤ k ∧ k ≤ lines.length := by
  obtain ⟨i, hi, rfl⟩ := Option.map_eq_some_iff.mp h
  have hlt : i < lines.length := (List.findIdx?_eq_some_iff_getElem.mp hi).1
  omega

/-- An issue is traced to the line of an entry or to a line of the output, or it stays where it
was. -/
theorem line_traceTo (entries : List TraceEntry) (lines names : List String) (issue : Issue) :
    (∃ e ∈ entries, (traceTo entries lines names (.ofIssue issue)).issue.line = e.outputLine) ∨
      (1 ≤ (traceTo entries lines names (.ofIssue issue)).issue.line ∧
        (traceTo entries lines names (.ofIssue issue)).issue.line ≤ lines.length) ∨
      (traceTo entries lines names (.ofIssue issue)).issue.line = issue.line := by
  unfold traceTo
  cases hentry : namedEntry? entries names with
  | some e =>
    obtain ⟨n, -, hfind⟩ := List.exists_of_findSome?_eq_some hentry
    exact Or.inl ⟨e, List.mem_of_find?_eq_some hfind, rfl⟩
  | none =>
    cases hline : namedLine? lines names with
    | some line =>
      obtain ⟨n, -, hopens⟩ := List.exists_of_findSome?_eq_some hline
      exact Or.inr (Or.inl (openingLine?_within hopens))
    | none =>
      refine Or.inr (Or.inr ?_)
      simp only [linked]
      split <;> rfl

/-! ## The issues of a run -/

/-- The issues of a run are traced soundly, one by one and in their order, whatever the entries, the
output and the targets of rules are. -/
theorem traceIssues_isTrace (table : RuleTable) (roots : List String) (entries : List TraceEntry)
    (output : Option String) (issues : List Issue) :
    List.Forall₂
      (fun issue t => IsTrace entries (names table roots issue.message issue.ruleId) issue t)
      issues (traceIssues table roots entries output issues) := by
  unfold traceIssues
  simp only
  split
  · -- There is neither an entry nor an output.
    rename_i hempty
    obtain rfl : entries = [] := by simpa using (Bool.and_eq_true_iff.mp hempty).1
    rw [List.forall₂_map_right_iff, List.forall₂_same]
    intro issue _
    refine isTrace_ofIssue ?_ (Or.inr (List.forall_mem_nil _))
    rintro ⟨n, ⟨e, he, -⟩, -⟩
    exact absurd he List.not_mem_nil
  · rw [List.forall₂_map_right_iff, List.forall₂_same]
    exact fun issue _ => isTrace_traceTo _ issue

end StylesheetTrace.Finding
