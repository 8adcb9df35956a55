import StylesheetTrace.Finding.Mapping
import StylesheetTrace.Proofs.Output.Tree

/-!
# Tracing an issue in a tree

The entries of a tree are sorted, and the nearest one at or before the line of an element is its own
(`nearest?_node`). An issue whose names are borne by elements of the tree is moved to the first of
them; an issue whose names no element bears stays where it is and has the origin of the element on
its line, below the first two lines (`traceTo_named`, `traceTo_unnamed`).
-/

namespace StylesheetTrace.Finding

open StylesheetTrace.Text StylesheetTrace.Markup StylesheetTrace.Location StylesheetTrace.Output

/-- The first element of a tree with one of the names, with its line; the first name first. -/
def named? (root : Element Marking) (names : List String) : Option (Nat × Element Marking) :=
  names.findSome? fun n => (root.nodes 1).find? fun p => p.2.name.text == n

/-! ## Entries -/

/-- The entry of an element bears its local name. -/
theorem localName_nodeEntry (p : Nat × Element Marking) :
    (nodeEntry p).localName = p.2.name.text := by
  unfold TraceEntry.localName
  simp only [nodeEntry, Output.origin, Stamp.origin, String.toList_ofList]
  rw [p.2.tag.qname.takeWhile_reverse, List.reverse_reverse]
  rfl

/-- The entries of a tree stand in the order of their lines, no two on one line. -/
theorem pairwise_nodeEntry (root : Element Marking) :
    ((root.nodes 1).map nodeEntry).Pairwise fun d e => d.outputLine < e.outputLine := by
  rw [← entriesOf_lines]
  exact pairwise_entriesOf _ 1

/-- The entries of a tree are sorted. -/
theorem sorted_nodeEntry (root : Element Marking) :
    sorted ((root.nodes 1).map nodeEntry) = (root.nodes 1).map nodeEntry := by
  refine List.mergeSort_of_pairwise ((pairwise_nodeEntry root).imp fun {d e} h => ?_)
  exact decide_eq_true (Nat.le_of_lt h)

/-- The last entry at or before the line of an entry is the entry itself, when no two entries are on
one line. -/
theorem nearest?_of_mem {es : List TraceEntry}
    (hes : es.Pairwise fun d e => d.outputLine < e.outputLine) {e : TraceEntry} (he : e ∈ es) :
    nearest? es e.outputLine = some e := by
  -- Of the entries behind it none is at or before its line.
  obtain ⟨before, after, rfl⟩ := List.append_of_mem he
  rw [List.pairwise_append, List.pairwise_cons] at hes
  have hafter : after.filter (fun d => decide (d.outputLine ≤ e.outputLine)) = [] := by
    rw [List.filter_eq_nil_iff]
    intro d hd
    have hlt := hes.2.1.1 d hd
    simpa using hlt
  rw [nearest?, List.filter_append, List.filter_cons_of_pos (by simp), hafter,
    List.getLast?_concat]

/-- The nearest entry at or before the line of an element of a tree is its own. -/
theorem nearest?_node {root x : Element Marking} {i : Nat} (h : (i, x) ∈ root.nodes 1) :
    nearest? ((root.nodes 1).map nodeEntry) i = some (nodeEntry (i, x)) :=
  nearest?_of_mem (pairwise_nodeEntry root) (List.mem_map_of_mem (f := nodeEntry) h)

/-! ## Names -/

/-- The first entry with one of the names is that of the first element with one of them. -/
theorem namedEntry?_nodeEntry (root : Element Marking) (names : List String) :
    namedEntry? ((root.nodes 1).map nodeEntry) names = (named? root names).map nodeEntry := by
  unfold namedEntry? named?
  induction names with
  | nil => rfl
  | cons n names ih =>
    have hfind : ((root.nodes 1).map nodeEntry).find? (fun e => e.localName == n) =
        ((root.nodes 1).find? fun p => p.2.name.text == n).map nodeEntry := by
      rw [List.find?_map]
      simp only [Function.comp_def, localName_nodeEntry]
    rw [List.findSome?_cons, List.findSome?_cons, hfind, ih]
    cases (root.nodes 1).find? fun p => p.2.name.text == n <;> rfl

/-- A name that no element of a tree bears is opened by none of its lines. -/
theorem openingLine?_eq_none {root : Element Marking} {n : String} (hn : NameLike n.toList)
    (h : ∀ p ∈ root.nodes 1, p.2.name.text ≠ n) : openingLine? n (texts root.lines) = none := by
  have hok : ∀ c, isPlainPrefixChar c = true → isPrefixChar c = true :=
    fun _ => isPrefixChar_of_isPlainPrefixChar
  have hline : ∀ l ∈ root.lines, hasForm (opening? isPlainPrefixChar n.toList) l.chars = false := by
    intro l hl
    rw [l.hasForm_opening hok hn, Option.any_eq_false]
    -- The start tag on the line is that of an element of the tree, which bears another name.
    intro t ht
    rw [← forestLines_singleton] at hl
    obtain ⟨p, hp, rfl⟩ := mem_nodes_of_tag? (i := 1) hl ht
    rw [forestNodes_singleton] at hp
    have hname : n.toList ≠ p.2.tag.qname.name.chars := by
      intro heq
      refine h p hp ?_
      rw [Element.name, LocalName.text, ← heq, String.ofList_toList]
    simp [QName.isNamed, hname]
  rw [openingLine?, Option.map_eq_none_iff, List.findIdx?_eq_none_iff]
  intro text htext
  obtain ⟨l, hl, rfl⟩ := List.mem_map.mp htext
  rw [Line.text, String.toList_ofList]
  exact hline l hl

/-- Names that no element of a tree bears are opened by none of its lines. -/
theorem namedLine?_eq_none {root : Element Marking} {names : List String}
    (hlike : ∀ n ∈ names, NameLike n.toList) (h : named? root names = none) :
    namedLine? (texts root.lines) names = none := by
  unfold namedLine?
  unfold named? at h
  rw [List.findSome?_eq_none_iff] at h ⊢
  intro n hn
  refine openingLine?_eq_none (hlike n hn) fun p hp heq => ?_
  have hnone := List.find?_eq_none.mp (h n hn) p hp
  exact hnone (beq_iff_eq.mpr heq)

/-- The only element of a tree with a name is the first with it. -/
theorem named?_of_unique {root x : Element Marking} {i : Nat} {n : LocalName}
    (h : (root.nodes 1).filter (fun p => p.2.name = n) = [(i, x)]) :
    named? root [n.text] = some (i, x) := by
  have htext : ∀ p : Nat × Element Marking, (p.2.name.text == n.text) = decide (p.2.name = n) := by
    intro p
    rw [Bool.eq_iff_iff, beq_iff_eq, decide_eq_true_eq, LocalName.text_inj]
  simp only [named?, htext, List.findSome?_cons, ← List.head?_filter, h, List.head?_cons]

/-! ## Issues -/

/-- An issue about an element of a tree is moved to the first element with one of its names. -/
theorem traceTo_named {root : Element Marking} {names : List String} {p : Nat × Element Marking}
    (h : named? root names = some p) (lines : List String) (issue : Issue) :
    traceTo ((root.nodes 1).map nodeEntry) lines names (.ofIssue issue) =
      ⟨{ issue with line := p.1 }, some (origin p.2)⟩ := by
  rw [traceTo, namedEntry?_nodeEntry, h]
  rfl

/-- An issue on the line of an element, about names that no element of the tree bears, stays there
and has the origin of that element, unless it is on one of the first two lines. -/
theorem traceTo_unnamed {root x : Element Marking} {names : List String} {issue : Issue}
    (hlike : ∀ n ∈ names, NameLike n.toList) (h : named? root names = none)
    (hx : (issue.line, x) ∈ root.nodes 1) :
    traceTo ((root.nodes 1).map nodeEntry) (texts root.lines) names (.ofIssue issue) =
      ⟨issue, if issue.line ≤ degenerateLines then none else some (origin x)⟩ := by
  rw [traceTo, namedEntry?_nodeEntry, h, namedLine?_eq_none hlike h]
  simp only [Option.map_none]
  rw [linked]
  have hline : (TracedIssue.ofIssue issue).issue.line = issue.line := rfl
  rw [hline]
  split
  · rfl
  · rw [nearest?_node hx]
    rfl

end StylesheetTrace.Finding
