import StylesheetTrace.Location.Extent
import StylesheetTrace.Proofs.Markup.Tree

/-!
# The extent of an element in a tree

The search for an element sees of a line which local name it opens and by how much it changes the
depth of nesting in a name. Behind a start tag the depth stays above zero along the whole trees of
the children (`closingLine_forestLines`), so that it falls to zero at the end tag of the element
itself, whatever elements of the same name stand between. Elements of other names are passed over,
and the `n`-th line that opens a name is that of the `n`-th sibling of the name, unless one of them
has an element of the name inside (`extentFrom_forestLines`).
-/

namespace StylesheetTrace.Location

open StylesheetTrace.Text StylesheetTrace.Markup

variable {α : Type}

/-! ## What the search sees of a line -/

/-- A line opens the local name of its start tag and no other. -/
theorem opensIn_text (n : LocalName) (l : Line α) :
    opensIn n.text l.text = l.tag?.any fun t => decide (t.qname.name = n) := by
  unfold opensIn
  rw [LocalName.text, Line.text, String.toList_ofList, String.toList_ofList,
    l.hasForm_opening (fun _ h => h) n.nameLike]
  simp [QName.isNamed_isPrefixChar]

/-- A line changes the depth of nesting in a local name by one if it is the line of a start or an
end tag of that name. -/
theorem depthDelta_text (n : LocalName) (l : Line α) : depthDelta n.text l.text = l.delta n := by
  have hok : ∀ c, isPrefixChar c = true → isPrefixChar c = true := fun _ h => h
  have hself : ∀ (p : Plain) (s : List Char), count (selfClosing? isPrefixChar n.chars)
      (p.chars ++ s) = count (selfClosing? isPrefixChar n.chars) s := fun p s =>
    count_append_of_not_mem (fun c s h => selfClosing?_of_ne h s) p.not_mem.1 s
  have hend : ∀ (p : Plain) (s : List Char), count (closing? isPrefixChar n.chars)
      (p.chars ++ s) = count (closing? isPrefixChar n.chars) s := fun p s =>
    count_append_of_not_mem (fun c s h => closing?_of_ne h s) p.not_mem.1 s
  -- An opening counts up; an empty element and an end tag count down.
  unfold depthDelta
  rw [LocalName.text, Line.text, String.toList_ofList, String.toList_ofList,
    l.count_opening hok n.nameLike]
  cases l with
  | leaf label tag text =>
    cases text with
    | none =>
      rw [Line.chars, hself, hend, count_selfClosing_emptyTag hok n.nameLike,
        count_closing_emptyTag]
      simp [Line.tag?, Line.delta, QName.isNamed_isPrefixChar]
    | some text =>
      -- The end tag on the same line takes back what the start tag counts.
      rw [Line.chars, hself, hend, count_selfClosing_startTag hok n.nameLike, hself,
        count_selfClosing_endTag hok n.nameLike, count_closing_startTag, hend,
        count_closing_endTag hok n.nameLike]
      simp [Line.tag?, Line.delta, QName.isNamed_isPrefixChar]
  | start label tag =>
    have hcountSelf := count_selfClosing_startTag hok n.nameLike tag []
    have hcountEnd := @count_closing_startTag isPrefixChar n.chars tag []
    rw [List.append_nil] at hcountSelf hcountEnd
    rw [Line.chars, hself, hend, hcountSelf, hcountEnd]
    simp only [Line.tag?, Line.delta, Option.any_some, QName.isNamed_isPrefixChar, count, collect,
      pieces_nil, List.filterMap_nil, List.length_nil, decide_eq_true_eq]
    split <;> rfl
  | close lead qname =>
    rw [Line.chars, hself, hend, count_selfClosing_endTag hok n.nameLike,
      count_closing_endTag hok n.nameLike]
    simp [Line.tag?, Line.delta, QName.isNamed_isPrefixChar]
    split <;> rfl

/-- Lines as texts. -/
def texts (ls : List (Line α)) : List String := ls.map Line.text

/-- The texts of lines one behind the other. -/
@[simp]
theorem texts_append (ls ms : List (Line α)) : texts (ls ++ ms) = texts ls ++ texts ms :=
  List.map_append

/-- The text of a first line. -/
@[simp]
theorem texts_cons (l : Line α) (ls : List (Line α)) : texts (l :: ls) = l.text :: texts ls := rfl

/-- The first line of an element opens its local name and no other. -/
theorem opensIn_startLine (n : LocalName) (x : Element α) :
    opensIn n.text x.startLine.text = decide (x.name = n) := by
  rw [opensIn_text, x.tag?_startLine]
  rfl

/-! ## The end of an element -/

/-- One more line at a depth above zero. -/
theorem closingLine_cons {n : String} {d : Int} (hd : 1 ≤ d) (i : Nat) (l : String)
    (ls : List String) :
    closingLine n d i (l :: ls) = closingLine n (d + depthDelta n l) (i + 1) ls := by
  rw [closingLine, if_neg (by omega)]

/-- A depth that is not above zero ends the search. -/
theorem closingLine_of_le {n : String} {d : Int} (hd : d ≤ 0) (i : Nat) (ls : List String) :
    closingLine n d i ls = i := by
  cases ls with
  | nil => rfl
  | cons l ls => rw [closingLine, if_pos hd]

/-- The trees of siblings are passed over: the depth stays above zero in them, and is the same
behind them. -/
theorem closingLine_forestLines (n : LocalName) (es : List (Element α)) {d : Int} (hd : 1 ≤ d)
    (i : Nat) (ls : List String) :
    closingLine n.text d i (texts (forestLines es) ++ ls) =
      closingLine n.text d (i + (forestLines es).length) ls := by
  induction es using forest_induction generalizing d i ls with
  | nil => rw [forestLines]; rfl
  | leaf label tag text es ih =>
    rw [forestLines, Element.lines, List.singleton_append, texts_cons, List.cons_append,
      closingLine_cons hd, depthDelta_text, Line.delta, Int.add_zero, ih hd, List.length_cons]
    congr 1
    omega
  | inner label tag children closing es ihchildren ihes =>
    -- The start tag may raise the depth by one, and the end tag then brings it back.
    have hup : 1 ≤ d + (Line.start label tag).delta n := by
      rw [Line.delta]
      split <;> omega
    have hback : d + (Line.start label tag).delta n +
        (Line.close (α := α) closing tag.qname).delta n = d := by
      rw [Line.delta, Line.delta]
      split <;> omega
    calc closingLine n.text d i
          (texts (forestLines (.inner label tag children closing :: es)) ++ ls)
        = closingLine n.text (d + (Line.start label tag).delta n) (i + 1)
          (texts (forestLines children) ++
            ((Line.close (α := α) closing tag.qname).text :: (texts (forestLines es) ++ ls))) := by
          rw [forestLines, Element.lines, List.cons_append, texts_cons, List.cons_append,
            closingLine_cons hd, depthDelta_text, List.append_assoc, texts_append,
            List.append_assoc, List.singleton_append, texts_cons, List.cons_append]
      _ = closingLine n.text (d + (Line.start label tag).delta n)
          (i + 1 + (forestLines children).length)
          ((Line.close (α := α) closing tag.qname).text :: (texts (forestLines es) ++ ls)) :=
          ihchildren hup (i + 1) _
      _ = closingLine n.text d (i + 1 + (forestLines children).length + 1)
          (texts (forestLines es) ++ ls) := by
          rw [closingLine_cons hup, depthDelta_text, hback]
      _ = closingLine n.text d
          (i + (forestLines (.inner label tag children closing :: es)).length) ls := by
          rw [ihes hd, forestLines, Element.lines]
          congr 1
          simp only [List.length_cons, List.length_append, List.length_nil]
          omega

/-- The search for the end of an element stops at its last line. -/
theorem closingLine_body (x : Element α) (i : Nat) (ls : List String) :
    closingLine x.name.text (depthDelta x.name.text x.startLine.text) i (texts x.body ++ ls) =
      i + x.body.length := by
  rw [depthDelta_text]
  cases x with
  | leaf label tag text => exact closingLine_of_le (Int.le_refl 0) i ls
  | inner label tag children closing =>
    -- At the end tag the depth is still one, so that the tag brings it to zero.
    have hname : (Element.inner label tag children closing).name = tag.qname.name := rfl
    rw [hname, Element.startLine, Line.delta, if_pos rfl, Element.body, texts_append,
      List.append_assoc, closingLine_forestLines _ _ (Int.le_refl 1), texts_cons, List.cons_append,
      closingLine_cons (Int.le_refl 1), depthDelta_text, Line.delta, if_pos rfl,
      closingLine_of_le (by decide), List.length_append]
    rfl

/-! ## The line that opens an element -/

/-- Lines that do not open the name are passed over. -/
theorem extentFrom_append {n : String} {ls : List String} (h : ∀ l ∈ ls, opensIn n l = false)
    (k i : Nat) (ms : List String) :
    extentFrom n k i (ls ++ ms) = extentFrom n k (i + ls.length) ms := by
  induction ls generalizing i with
  | nil => rfl
  | cons l ls ih =>
    rw [List.cons_append, extentFrom, if_neg (by simp [h l List.mem_cons_self]),
      ih (fun m hm => h m (List.mem_cons_of_mem l hm)), List.length_cons]
    congr 1
    omega

/-- Trees without an element of the name do not open it. -/
theorem opensIn_forestLines {n : LocalName} {es : List (Element α)} {i : Nat}
    (h : ∀ p ∈ forestNodes i es, p.2.name ≠ n) :
    ∀ l ∈ forestLines es, opensIn n.text l.text = false := by
  induction es using forest_induction generalizing i with
  | nil => simp [forestLines]
  | leaf label tag text es ih =>
    rw [forestNodes, Element.nodes, List.singleton_append] at h
    obtain ⟨hname, hes⟩ := List.forall_mem_cons.mp h
    rw [forestLines, Element.lines, List.singleton_append]
    refine List.forall_mem_cons.mpr ⟨?_, ih hes⟩
    rw [opensIn_text]
    simpa [Line.tag?, Element.name, Element.tag] using hname
  | inner label tag children closing es ihchildren ihes =>
    rw [forestNodes, Element.nodes, List.cons_append] at h
    obtain ⟨hname, hrest⟩ := List.forall_mem_cons.mp h
    obtain ⟨hchildren, hes⟩ := List.forall_mem_append.mp hrest
    rw [forestLines, Element.lines, List.cons_append, List.append_assoc]
    refine List.forall_mem_cons.mpr ⟨?_, List.forall_mem_append.mpr ⟨ihchildren hchildren, ?_⟩⟩
    · rw [opensIn_text]
      simpa [Line.tag?, Element.name, Element.tag] using hname
    -- The end tag opens nothing.
    · refine List.forall_mem_cons.mpr ⟨?_, ihes hes⟩
      rw [opensIn_text]
      rfl

/-- An element without an element of the name inside does not open it behind its first line. -/
theorem opensIn_body {n : LocalName} {x : Element α} (h : ∀ d ∈ x.descendants, d.name ≠ n) :
    ∀ l ∈ x.body, opensIn n.text l.text = false := by
  cases x with
  | leaf label tag text => simp [Element.body]
  | inner label tag children closing =>
    refine List.forall_mem_append.mpr ⟨?_, ?_⟩
    · exact opensIn_forestLines (i := 0) fun p hp => h p.2 (List.mem_map_of_mem hp)
    · simp [opensIn_text, Line.tag?]

/-- The lines of an element at line `i`. -/
def extentOf (i : Nat) (x : Element α) : Extent :=
  ⟨i, i + x.body.length⟩

/-- Among siblings without elements of a name inside, the `k`-th line that opens the name is that of
the `k`-th sibling of the name. -/
theorem extentFrom_forestLines {n : LocalName} {es : List (Element α)} {j k : Nat} {x : Element α}
    (hdirect : ∀ c ∈ es, ∀ d ∈ c.descendants, d.name ≠ n) (i : Nat) (ls : List String)
    (h : sibling? n k i es = some (j, x)) :
    extentFrom n.text (k + 1) i (texts (forestLines es) ++ ls) = some (extentOf j x) := by
  induction es generalizing i k with
  | nil => simp [sibling?, placed] at h
  | cons e es ih =>
    obtain ⟨he, hes⟩ := List.forall_mem_cons.mp hdirect
    have hbody : ∀ l ∈ texts e.body, opensIn n.text l = false :=
      List.forall_mem_map.mpr (opensIn_body he)
    have hlength : i + 1 + (texts e.body).length = i + e.lines.length := by
      rw [e.lines_eq, texts, List.length_map, List.length_cons]
      omega
    unfold sibling? at h ih
    rw [placed] at h
    rw [forestLines, texts_append, List.append_assoc, e.lines_eq, texts_cons, List.cons_append,
      extentFrom, opensIn_startLine]
    by_cases hname : e.name = n
    -- The sibling has the name: it is the one looked for, or one less is to be passed over.
    · rw [List.filter_cons_of_pos (by simp [hname])] at h
      rw [if_pos (by simp [hname])]
      cases k with
      | zero =>
        obtain ⟨rfl, rfl⟩ := Prod.mk.inj (Option.some.inj h)
        rw [if_pos rfl, ← hname, closingLine_body]
        rfl
      | succ k =>
        rw [if_neg (by omega), extentFrom_append hbody, hlength]
        exact ih hes _ h
    -- The sibling has another name, and none of its lines opens this one.
    · rw [List.filter_cons_of_neg (by simp [hname])] at h
      rw [if_neg (by simp [hname]), extentFrom_append hbody, hlength]
      exact ih hes _ h

end StylesheetTrace.Location
