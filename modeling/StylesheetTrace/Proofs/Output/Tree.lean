import StylesheetTrace.Proofs.Location.Extent
import StylesheetTrace.Proofs.Output.Split

/-!
# The marked output of a tree

A tree whose elements are labelled with stamps is written with a marker on a line of its own before
each start tag. The split of this output gives the lines of the tree and, for each element in
document order, an entry with the line of its start tag and the place that its stamp and its name
make up (`split_markedTree`).
-/

namespace StylesheetTrace.Output

open StylesheetTrace.Text StylesheetTrace.Markup StylesheetTrace.Location

/-- A stamp that can be read back. -/
abbrev Marking := {p : Stamp // p.Sound}

/-- The place in the stylesheet that produced an element. -/
def origin (x : Element Marking) : Origin := x.label.1.origin x.tag.qname.chars

/-- A line of a tree with the marker before it. -/
def markedOf : Line Marking → MarkedLine
  | .leaf label tag text => ⟨some (label.1, tag.qname.chars), (Line.leaf label tag text).chars⟩
  | .start label tag => ⟨some (label.1, tag.qname.chars), (Line.start label tag).chars⟩
  | .close lead qname => ⟨none, (Line.close (α := Marking) lead qname).chars⟩

/-- The raw output of a tree. -/
def treeText (sentinel : String) (root : Element Marking) : String :=
  markedText sentinel (root.lines.map markedOf)

/-- The entries of the elements of a tree, each with its line. -/
def nodeEntry (p : Nat × Element Marking) : TraceEntry := ⟨p.1, origin p.2⟩

/-! ## Lines -/

/-- The beginning of a comment or of a declaration. -/
def declaration? : Reader Unit := fun s => (after? ['<', '!'] s).map fun rest => ((), rest)

/-- A declaration begins with `<`. -/
theorem declaration?_of_ne {c : Char} (h : c ≠ '<') (s : List Char) :
    declaration? (c :: s) = none := by
  rw [declaration?, after?_cons_of_ne (Ne.symm h)]
  rfl

/-- Text without `<` begins no declaration, and neither does a tag. -/
theorem silent_declaration {c : Char} (hc : c ≠ '!') {t : List Char} (ht : '<' ∉ c :: t)
    (s : List Char) : Silent declaration? ('<' :: c :: t) s := by
  refine ⟨?_, silent_of_not_mem (fun d u hd => declaration?_of_ne hd u) ht s⟩
  rw [declaration?, List.cons_append, after?_cons_cons, after?_cons_of_ne (Ne.symm hc)]
  rfl

/-- A start tag begins no declaration. -/
theorem silent_startTag (q : QName) {t : List Char} (ht : '<' ∉ t) (s : List Char) :
    Silent declaration? ('<' :: (q.chars ++ t)) s := by
  obtain ⟨c, u, hchars, hc⟩ := q.chars_eq_cons
  have hbang : c ≠ '!' := by
    rintro rfl
    exact absurd hc (by decide)
  have hlt : '<' ∉ q.chars ++ t := List.not_mem_append q.lt_not_mem ht
  rw [hchars] at hlt ⊢
  exact silent_declaration hbang hlt s

/-- An end tag begins no declaration. -/
theorem silent_endTag (q : QName) (s : List Char) : Silent declaration? q.endTag s := by
  refine silent_declaration (by decide) ?_ s
  simp [q.lt_not_mem]

section

variable {α : Type}

/-- A line of a tree begins no comment. -/
theorem not_infix_line (l : Line α) : ¬ ['<', '!'] <:+: l.chars := by
  have hword : ∀ s, declaration? ('<' :: (['!'] ++ s)) ≠ none := by
    intro s
    simp [declaration?]
  refine not_infix_of_silent hword ?_
  have hplain : ∀ (p : Plain) s, Silent declaration? p.chars s := fun p s =>
    silent_of_not_mem (fun d u hd => declaration?_of_ne hd u) p.not_mem.1 s
  have hattributes : ∀ (a : Attributes) (t : List Char), '<' ∉ t → '<' ∉ a.chars ++ t :=
    fun a t ht => List.not_mem_append a.not_mem.1 ht
  cases l with
  | leaf label tag text =>
    cases text with
    | none =>
      exact silent_append.mpr ⟨hplain _ _, silent_startTag _ (hattributes _ _ (by decide)) _⟩
    | some text =>
      refine silent_append.mpr ⟨hplain _ _, silent_append.mpr ⟨?_, ?_⟩⟩
      · exact silent_startTag _ (hattributes _ _ (by decide)) _
      · exact silent_append.mpr ⟨hplain _ _, silent_endTag _ _⟩
  | start label tag =>
    exact silent_append.mpr ⟨hplain _ _, silent_startTag _ (hattributes _ _ (by decide)) _⟩
  | close lead qname => exact silent_append.mpr ⟨hplain _ _, silent_endTag _ _⟩

/-- A line of a tree holds no line feed. -/
theorem feed_not_mem_line (l : Line α) : '\n' ∉ l.chars := by
  have hq : ∀ q : QName, '\n' ∉ q.chars := QName.not_mem_chars (by decide) (by decide)
  have hp : ∀ p : Plain, '\n' ∉ p.chars := fun p => p.not_mem.2.2
  cases l with
  | leaf label tag text =>
    cases text <;> simp [Line.chars, Tag.emptyTag, Tag.startTag, QName.endTag, hq, hp]
  | start label tag => simp [Line.chars, Tag.startTag, hq, hp]
  | close lead qname => simp [Line.chars, QName.endTag, hq, hp]

/-- A line of a tree ends with a tag. -/
theorem getLast?_line (l : Line α) : l.chars.getLast? = some '>' := by
  cases l with
  | leaf label tag text =>
    cases text <;>
      simp [Line.chars, Tag.emptyTag, Tag.startTag, QName.endTag, List.getLast?_append,
        List.getLast?_cons]
  | start label tag =>
    simp [Line.chars, Tag.startTag, List.getLast?_append, List.getLast?_cons]
  | close lead qname =>
    simp [Line.chars, QName.endTag, List.getLast?_append, List.getLast?_cons]

/-- A line of a tree is one that is kept. -/
theorem sound_line (sentinel : List Char) (l : Line α) :
    (RawLine.content l.chars).Sound sentinel := by
  refine ⟨feed_not_mem_line l, by simp [getLast?_line], fun h => not_infix_line l (.trans ?_ h)⟩
  exact ⟨[], ['-', '-'] ++ sentinel ++ ['|'], by simp [markerStart]⟩

end

/-- The line of the line `l` of a tree. -/
theorem line_markedOf (l : Line Marking) : (markedOf l).line = l.chars := by
  cases l <;> rfl

/-! ## Entries -/

/-- The entries of the lines of siblings are those of the elements of their trees. -/
theorem entriesOf_forestLines (es : List (Element Marking)) (i : Nat) :
    entriesOf i ((forestLines es).map markedOf) = (forestNodes i es).map nodeEntry := by
  induction es using forest_induction generalizing i with
  | nil => rw [forestLines, forestNodes]; rfl
  | leaf label tag text es ih =>
    rw [forestLines, Element.lines, List.singleton_append, List.map_cons, entriesOf_cons, ih,
      forestNodes, Element.nodes, Element.lines]
    rfl
  | inner label tag children closing es ihchildren ihes =>
    have hlength : i + (Element.inner label tag children closing).lines.length =
        i + 1 + ((forestLines children).map markedOf).length + 1 := by
      rw [Element.lines, List.length_cons, List.length_append, List.length_map, List.length_cons,
        List.length_nil]
      omega
    -- Only the end tag has no entry; the children and the later siblings have theirs.
    calc entriesOf i ((forestLines (.inner label tag children closing :: es)).map markedOf)
        = entriesOf i (markedOf (.start label tag) :: ((forestLines children).map markedOf ++
            markedOf (.close closing tag.qname) :: (forestLines es).map markedOf)) := by
          rw [forestLines, Element.lines, List.cons_append, List.append_assoc,
            List.singleton_append, List.map_cons, List.map_append, List.map_cons]
      _ = nodeEntry (i, .inner label tag children closing) ::
            ((forestNodes (i + 1) children).map nodeEntry ++
              (forestNodes (i + (Element.inner label tag children closing).lines.length) es).map
                nodeEntry) := by
          rw [entriesOf_cons, entriesOf_append, ihchildren, entriesOf_cons, ihes, hlength]
          rfl
      _ = (forestNodes i (.inner label tag children closing :: es)).map nodeEntry := by
          rw [forestNodes, Element.nodes, List.cons_append, List.map_cons, List.map_append]

/-- The entries of a tree are those of its elements in document order. -/
theorem entriesOf_lines (root : Element Marking) :
    entriesOf 1 (root.lines.map markedOf) = (root.nodes 1).map nodeEntry := by
  have h := entriesOf_forestLines [root] 1
  rwa [forestLines_singleton, forestNodes_singleton] at h

/-- The raw output of a tree is split into the lines of the tree and the entries of its elements. -/
theorem split_treeText {sentinel : String} (hsentinel : '\n' ∉ sentinel.toList)
    (root : Element Marking) :
    split sentinel (treeText sentinel root) =
      .ok ⟨texts root.lines, (root.nodes 1).map nodeEntry⟩ := by
  have hsound : ∀ m ∈ root.lines.map markedOf, m.Sound sentinel.toList := by
    refine List.forall_mem_map.mpr fun l _ => ?_
    have hline := sound_line sentinel.toList l
    have hname : ∀ q : QName, '\n' ∉ q.chars ∧ ¬ commentEnd <:+: q.chars := fun q =>
      ⟨QName.not_mem_chars (by decide) (by decide) q, fun h =>
        QName.not_mem_chars (by decide) (by decide) q (h.subset (a := '>') (by decide))⟩
    have hmarker : ∀ (p : Marking) (q : QName),
        (RawLine.marker p.1 q.chars).Sound sentinel.toList := fun p q => ⟨p.2, hname q⟩
    cases l with
    | leaf label tag text =>
      simpa [MarkedLine.Sound, markedOf, MarkedLine.raw] using ⟨hmarker label tag.qname, hline⟩
    | start label tag =>
      simpa [MarkedLine.Sound, markedOf, MarkedLine.raw] using ⟨hmarker label tag.qname, hline⟩
    | close lead qname => simpa [MarkedLine.Sound, markedOf, MarkedLine.raw] using hline
  have hne : root.lines.map markedOf ≠ [] := by simp [root.lines_eq]
  have htexts : (root.lines.map markedOf).map (fun m => String.ofList m.line) =
      texts root.lines := by
    rw [List.map_map]
    exact List.map_congr_left fun l _ => congrArg String.ofList (line_markedOf l)
  rw [treeText, split_markedText hsentinel hsound hne, htexts, entriesOf_lines]

end StylesheetTrace.Output
