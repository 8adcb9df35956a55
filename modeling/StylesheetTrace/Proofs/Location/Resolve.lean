import Mathlib.Data.Bool.AllAny
import StylesheetTrace.Location.Resolve
import StylesheetTrace.Proofs.Location.Extent
import StylesheetTrace.Proofs.Location.Path

/-!
# The line of a path in a tree

A location path is resolved to the line of the start tag of the element that it denotes
(`resolve_pathText`). The search narrows the window from the extent of one element to that of the
next, and each of these extents is the one that the element has in the tree (`trailIn_follow?`).
-/

namespace StylesheetTrace.Location

open StylesheetTrace.Text StylesheetTrace.Markup

/-! ## Any lines -/

/-- An extent begins with one of the lines that are searched. -/
theorem first_of_extentFrom {name : String} {n i : Nat} {ls : List String} {e : Extent}
    (h : extentFrom name n i ls = some e) : i ≤ e.first ∧ e.first < i + ls.length := by
  induction ls generalizing n i with
  | nil => exact absurd h (by simp [extentFrom])
  | cons line ls ih =>
    rw [List.length_cons]
    unfold extentFrom at h
    split at h
    · split at h
      · obtain rfl := Option.some.inj h
        exact ⟨Nat.le_refl i, Nat.lt_add_of_pos_right (Nat.succ_pos _)⟩
      · have hrest := ih h
        omega
    · have hrest := ih h
      omega

/-- An extent that is found among lines begins with one of them. -/
theorem first_of_findExtent {name : String} {n : Nat} {ls : List String} {first last : Int}
    {e : Extent} (h : findExtent name n ls first last = some e) : e.first < ls.length := by
  have hwindow := first_of_extentFrom h
  rw [List.length_take, List.length_drop] at hwindow
  omega

/-- The extents found for the steps of a path begin with lines of the text. -/
theorem first_of_mem_trailIn {ls : List String} {path : List Step} {first last : Int} {e : Extent}
    (h : e ∈ trailIn ls path first last) : e.first < ls.length := by
  induction path generalizing first last with
  | nil => exact absurd h List.not_mem_nil
  | cons step path ih =>
    unfold trailIn at h
    split at h
    · rename_i d hfound
      rcases List.mem_cons.mp h with rfl | h
      · exact first_of_findExtent hfound
      · exact ih h
    · exact absurd h List.not_mem_nil

/-- A path is located at one of the lines of the text, counted from 1. -/
theorem locate?_within {path : List Step} {ls : List String} {k : Nat}
    (h : locate? path ls = some k) : 1 ≤ k ∧ k ≤ ls.length := by
  obtain ⟨e, he, rfl⟩ := Option.map_eq_some_iff.mp h
  have hlt : e.first < ls.length := first_of_mem_trailIn (List.mem_of_getLast? he)
  omega

/-! ## The lines of a tree -/

variable {α : Type}

/-- Below an element that stands at line `i`, the search covers the lines behind its first. -/
theorem findExtent_body {x : Element α} {i : Nat} {ls : List String}
    (hx : texts x.lines <+: ls.drop i) (n : String) (k : Nat) :
    findExtent n k ls ((extentOf i x).first + 1) (extentOf i x).last =
      extentFrom n k (i + 1) (texts x.body) := by
  obtain ⟨rest, hrest⟩ := hx
  have hdrop : ls.drop (i + 1) = texts x.body ++ rest := by
    rw [← List.tail_drop, ← hrest, x.lines_eq]
    rfl
  have hlen : i + 1 + (texts x.body).length ≤ ls.length := by
    have h := congrArg List.length hrest
    rw [List.length_append, x.lines_eq, texts_cons, List.length_cons, List.length_drop] at h
    omega
  have hbody : (texts x.body).length = x.body.length := List.length_map _
  -- The window begins behind the first line and ends with the last, which the text reaches.
  have hstart : ((extentOf i x).first + 1 : Int).toNat = i + 1 := by
    simp only [extentOf]
    omega
  have hstop : (min ((extentOf i x).last : Int) (ls.length - 1) + 1).toNat =
      i + 1 + (texts x.body).length := by
    simp only [extentOf]
    omega
  simp only [findExtent]
  rw [hstart, hstop, hdrop, Nat.add_sub_cancel_left, List.take_left]

/-- A step down from an element finds the extent of the child that it denotes. -/
theorem findExtent_child? {x y : Element α} {s : PathStep} {i k : Nat} {ls : List String}
    (hx : texts x.lines <+: ls.drop i)
    (hdirect : ∀ c ∈ x.children, ∀ d ∈ c.descendants, d.name ≠ s.name)
    (h : x.child? s = some (k, y)) :
    findExtent s.name.text s.index ls ((extentOf i x).first + 1) (extentOf i x).last =
      some (extentOf (i + k) y) := by
  rw [findExtent_body hx]
  unfold Element.child? at h
  split at h
  · exact absurd h (by simp)
  · rename_i m hindex
    rw [hindex]
    cases x with
    | leaf label tag text => simp [Element.children, sibling?, placed] at h
    | inner label tag children closing =>
      rw [Element.body, texts_append]
      exact extentFrom_forestLines hdirect (i + 1) _ (sibling?_add h i)

/-- The extents found for steps down from an element end with that of the element they denote. -/
theorem trailIn_follow? {path : List PathStep} {x y : Element α} {i j : Nat} {ls : List String}
    (hx : texts x.lines <+: ls.drop i) (hdirect : x.Direct path)
    (h : x.follow? i path = some (j, y)) :
    (extentOf i x :: trailIn ls (path.map stepOf) ((extentOf i x).first + 1)
      (extentOf i x).last).getLast? = some (extentOf j y) := by
  induction path generalizing x i with
  | nil =>
    obtain ⟨rfl, rfl⟩ := Prod.mk.inj (Option.some.inj h)
    rfl
  | cons s path ih =>
    obtain ⟨⟨k, z⟩, hz, hpath⟩ := Option.bind_eq_some_iff.mp h
    -- The child stands in the text at its own line, so that the search goes on from there.
    have hstands : texts z.lines <+: ls.drop (i + k) := by
      have hchild := (Element.child?_standsAt hz).map Line.text
      rw [List.map_drop] at hchild
      have hdrop := hchild.trans (hx.drop k)
      rwa [List.drop_drop] at hdrop
    rw [List.map_cons, trailIn, stepOf, findExtent_child? hx hdirect.1 hz, List.getLast?_cons_cons]
    exact ih hstands (hdirect.2 _ hz) hpath

/-- The root is found by its name in the whole of a text that begins with it. -/
theorem findExtent_root (root : Element α) (rest : List String) :
    findExtent root.name.text 1 (texts root.lines ++ rest) 0
      ((texts root.lines ++ rest).length - 1) = some (extentOf 0 root) := by
  have hstop : (min (((texts root.lines ++ rest).length : Int) - 1)
      ((texts root.lines ++ rest).length - 1) + 1).toNat =
      (texts root.lines ++ rest).length := by
    omega
  simp only [findExtent]
  rw [hstop, Int.toNat_zero, List.drop_zero, Nat.sub_zero, List.take_length, root.lines_eq,
    texts_cons, List.cons_append, extentFrom, opensIn_startLine, if_pos (by simp), if_pos rfl,
    closingLine_body]
  rfl

/-- The steps of a path are located at the line of the element that it denotes. -/
theorem locate?_node? {root x : Element α} {path : List PathStep} {j : Nat}
    (hnode : root.node? path = some (j, x)) (hdirect : root.Direct path.tail)
    (rest : List String) :
    locate? (path.map stepOf) (texts root.lines ++ rest) = some (j + 1) := by
  obtain ⟨s, path, rfl, hname, hindex, hfollow⟩ := Element.node?_eq_some.mp hnode
  rw [List.tail_cons] at hdirect
  have hx : texts root.lines <+: (texts root.lines ++ rest).drop 0 := List.prefix_append _ _
  -- The first step finds the root itself; from there the extents narrow down to the element.
  have htrail := trailIn_follow? hx hdirect hfollow
  rw [locate?, trail, List.map_cons, trailIn, stepOf, hname, hindex, findExtent_root]
  simp only
  rw [htrail]
  rfl

/-- A path is resolved to the line of the start tag of the element that it denotes, provided that at
every step all elements of its name below the element reached so far are children of that element.
Elements of the same names elsewhere in the tree do not matter, nor does what follows the tree. -/
theorem resolve_pathText {root x : Element α} {path : List PathStep} {j : Nat}
    (hnode : root.node? path = some (j, x)) (hdirect : root.Direct path.tail)
    (hindex : ∀ s ∈ path, s.index < 10 ^ TooLong.limit) (rest : List String) (fallback : Int) :
    resolve (pathText path) (texts root.lines ++ rest) fallback = .ok (j + 1) ∧
      root.lines[j]? = some x.startLine := by
  constructor
  · rw [resolve, steps_pathText (Element.node?_index_pos hnode) hindex]
    simp only [Except.map, locate?_node? hnode hdirect rest]
    rfl
  · exact Element.getElem?_of_standsAt (Element.node?_standsAt hnode)

/-- A name of the sample that begins with another one. -/
def longerName : LocalName := ⟨'a', ['b'], by decide, List.all_eq_true.mp (by decide)⟩

/-- A tree with elements of the same name one inside the other, and with names that begin alike; the
elements are labelled by their numbers in document order:

```
<r>
  <p:a>
    <a>text</a>
  </p:a>
  <ab/>
  <c/>
  <p:c>
    <a/>
  </p:c>
</r>
```
-/
def nestedTree (label : Nat → α) : Element α :=
  let a : LocalName := ⟨'a', [], by decide, List.forall_mem_nil _⟩
  let c : LocalName := ⟨'c', [], by decide, List.forall_mem_nil _⟩
  let r : LocalName := ⟨'r', [], by decide, List.forall_mem_nil _⟩
  let p : Qualifier := ⟨['p'], by decide, List.all_eq_true.mp (by decide)⟩
  let empty : Plain := ⟨[], List.forall_mem_nil _⟩
  let bare : Attributes := ⟨empty, by simp [empty], by decide⟩
  let two : Plain := ⟨[' ', ' '], List.all_iff_forall_prop.mp (by decide)⟩
  let four : Plain := ⟨[' ', ' ', ' ', ' '], List.all_iff_forall_prop.mp (by decide)⟩
  let text : Plain := ⟨"text".toList, List.all_iff_forall_prop.mp (by decide)⟩
  .inner (label 1) ⟨empty, ⟨none, r⟩, bare⟩
    [.inner (label 2) ⟨two, ⟨some p, a⟩, bare⟩
      [.leaf (label 3) ⟨four, ⟨none, a⟩, bare⟩ (some text)] two,
      .leaf (label 4) ⟨two, ⟨none, longerName⟩, bare⟩ none,
      .leaf (label 5) ⟨two, ⟨none, c⟩, bare⟩ none,
      .inner (label 6) ⟨two, ⟨some p, c⟩, bare⟩ [.leaf (label 7) ⟨four, ⟨none, a⟩, bare⟩ none] two]
    empty

/-- The path `/r[1]/c[2]/a[1]`. -/
def nestedPath : List PathStep :=
  [⟨⟨'r', [], by decide, List.forall_mem_nil _⟩, 1⟩,
    ⟨⟨'c', [], by decide, List.forall_mem_nil _⟩, 2⟩,
    ⟨⟨'a', [], by decide, List.forall_mem_nil _⟩, 1⟩]

/-- The element inside the second `c` is found, past the elements of its name further up. -/
theorem resolve_nestedPath :
    ∃ x, (nestedTree id).node? nestedPath = some (7, x) ∧
      resolve (pathText nestedPath) (texts (nestedTree id).lines) (-1) = .ok 8 := by
  have hnode : (nestedTree id).node? nestedPath = some (7, _) := rfl
  have hdirect : (nestedTree id).Direct nestedPath.tail := by decide
  have hindex : ∀ s ∈ nestedPath, s.index < 10 ^ TooLong.limit := by decide +kernel
  have h := (resolve_pathText hnode hdirect hindex [] (-1)).1
  rw [List.append_nil] at h
  exact ⟨_, hnode, h⟩

end StylesheetTrace.Location
