import Mathlib.Data.List.Infix
import StylesheetTrace.Proofs.Markup.Line

/-!
# Trees of elements

An element tree is laid out line by line, and each of its elements stands where its lines begin. A
path of steps, each a local name with an index among the siblings of that name, denotes an element
of the tree and with it a line (`Element.node?`, `node_standsAt`). All that is proved about trees
follows the constructors by `forest_induction`: a row of siblings is empty, or begins with a leaf or
with an inner element, whose children are a row of their own.
-/

namespace StylesheetTrace.Markup

/-- An element with a label: a leaf, which holds a text or is closed at once, or an inner element
with its children and the text before its end tag. -/
inductive Element (α : Type) where
  | leaf (label : α) (tag : Tag) (text : Option Plain)
  | inner (label : α) (tag : Tag) (children : List (Element α)) (closing : Plain)

variable {α : Type}

/-! ## Lines and nodes -/

mutual

/-- The lines of an element, from that of its start tag to that of its end tag. -/
def Element.lines : Element α → List (Line α)
  | .leaf label tag text => [.leaf label tag text]
  | .inner label tag children closing =>
    .start label tag :: (forestLines children ++ [.close closing tag.qname])

/-- The lines of siblings. -/
def forestLines : List (Element α) → List (Line α)
  | [] => []
  | e :: es => e.lines ++ forestLines es

end

mutual

/-- The elements of a tree in document order, each with its line; the first line is `i`. -/
def Element.nodes (i : Nat) : Element α → List (Nat × Element α)
  | .leaf label tag text => [(i, .leaf label tag text)]
  | .inner label tag children closing =>
    (i, .inner label tag children closing) :: forestNodes (i + 1) children

/-- The elements of the trees of siblings in document order, each with its line; the first line is
`i`. -/
def forestNodes (i : Nat) : List (Element α) → List (Nat × Element α)
  | [] => []
  | e :: es => e.nodes i ++ forestNodes (i + e.lines.length) es

end

/-- The siblings, each with its line; the first line is `i`. -/
def placed (i : Nat) : List (Element α) → List (Nat × Element α)
  | [] => []
  | e :: es => (i, e) :: placed (i + e.lines.length) es

/-- The lines of one element alone. -/
@[simp]
theorem forestLines_singleton (x : Element α) : forestLines [x] = x.lines := by
  rw [forestLines, forestLines, List.append_nil]

/-- The elements of one tree alone. -/
@[simp]
theorem forestNodes_singleton (i : Nat) (x : Element α) : forestNodes i [x] = x.nodes i := by
  rw [forestNodes, forestNodes, List.append_nil]

namespace Element

/-- The start tag of an element. -/
def tag : Element α → Tag
  | leaf _ tag _ => tag
  | inner _ tag _ _ => tag

/-- The label of an element. -/
def label : Element α → α
  | leaf label _ _ => label
  | inner label _ _ _ => label

/-- The local name of an element. -/
def name (x : Element α) : LocalName := x.tag.qname.name

/-- The children of an element. -/
def children : Element α → List (Element α)
  | leaf _ _ _ => []
  | inner _ _ children _ => children

/-- The line that opens an element. -/
def startLine : Element α → Line α
  | leaf label tag text => .leaf label tag text
  | inner label tag _ _ => .start label tag

/-- The lines of an element behind the one that opens it. -/
def body : Element α → List (Line α)
  | leaf _ _ _ => []
  | inner _ tag children closing => forestLines children ++ [.close closing tag.qname]

/-- The elements below an element. -/
def descendants (x : Element α) : List (Element α) :=
  (forestNodes 0 x.children).map Prod.snd

/-- An element begins with the line that opens it. -/
theorem lines_eq (x : Element α) : x.lines = x.startLine :: x.body := by
  cases x with
  | leaf label tag text => rw [lines]; rfl
  | inner label tag children closing => rw [lines]; rfl

/-- The line that opens an element holds its start tag. -/
theorem tag?_startLine (x : Element α) : x.startLine.tag? = some x.tag := by
  cases x <;> rfl

/-- An element comes first among those of its own tree. -/
theorem nodes_eq (i : Nat) (x : Element α) :
    x.nodes i = (i, x) :: forestNodes (i + 1) x.children := by
  cases x with
  | leaf label tag text => rw [nodes, children, forestNodes]
  | inner label tag children closing => rw [nodes]; rfl

end Element

/-! ## Induction -/

mutual

/-- An element put before siblings for which a property holds keeps it. -/
theorem forest_induction_cons {motive : List (Element α) → Prop} (nil : motive [])
    (leaf : ∀ label tag text es, motive es → motive (.leaf label tag text :: es))
    (inner : ∀ label tag children closing es, motive children → motive es →
      motive (.inner label tag children closing :: es)) :
    ∀ (e : Element α) (es : List (Element α)), motive es → motive (e :: es)
  | .leaf label tag text, es, hes => leaf label tag text es hes
  | .inner label tag children closing, es, hes =>
    inner label tag children closing es (forest_induction nil leaf inner children) hes

/-- Induction along a row of siblings and down their trees. -/
@[elab_as_elim]
theorem forest_induction {motive : List (Element α) → Prop} (nil : motive [])
    (leaf : ∀ label tag text es, motive es → motive (.leaf label tag text :: es))
    (inner : ∀ label tag children closing es, motive children → motive es →
      motive (.inner label tag children closing :: es)) : ∀ es, motive es
  | [] => nil
  | e :: es => forest_induction_cons nil leaf inner e es (forest_induction nil leaf inner es)

end

/-! ## Paths -/

/-- A step of a path. -/
structure PathStep where
  /-- The local name of the element. -/
  name : LocalName
  /-- Its index among the siblings of that name, from 1. -/
  index : Nat
  deriving DecidableEq

/-- A sibling that a step denotes: the `k`-th of those with the local name, from 0. -/
def sibling? (n : LocalName) (k i : Nat) (es : List (Element α)) : Option (Nat × Element α) :=
  ((placed i es).filter fun p => decide (p.2.name = n))[k]?

namespace Element

/-- The child that a step denotes, with the number of lines from the element to it. -/
def child? (x : Element α) (s : PathStep) : Option (Nat × Element α) :=
  match s.index with
  | 0 => none
  | k + 1 => sibling? s.name k 1 x.children

/-- The element that steps down from `x` denote, with its line; `x` has line `i`. -/
def follow? (i : Nat) (x : Element α) : List PathStep → Option (Nat × Element α)
  | [] => some (i, x)
  | s :: path => (x.child? s).bind fun p => p.2.follow? (i + p.1) path

/-- The element that a path from the root denotes, with its line counted from 0. -/
def node? (root : Element α) : List PathStep → Option (Nat × Element α)
  | [] => none
  | s :: path => if s.name = root.name ∧ s.index = 1 then root.follow? 0 path else none

/-- At every step down from `x`, all elements of its name below the element reached so far are
children of that element. -/
def Direct (x : Element α) : List PathStep → Prop
  | [] => True
  | s :: path =>
    (∀ c ∈ x.children, ∀ d ∈ c.descendants, d.name ≠ s.name) ∧
      ∀ p ∈ x.child? s, p.2.Direct path

/-- Whether the steps down from an element are direct can be computed. -/
instance decidableDirect : (x : Element α) → (path : List PathStep) → Decidable (x.Direct path)
  | _, [] => .isTrue trivial
  | x, s :: path =>
    have (p : Nat × Element α) : Decidable (p.2.Direct path) := decidableDirect p.2 path
    inferInstanceAs (Decidable ((∀ c ∈ x.children, ∀ d ∈ c.descendants, d.name ≠ s.name) ∧
      ∀ p ∈ x.child? s, p.2.Direct path))

end Element

/-- The siblings placed some lines further down. -/
theorem placed_add (i m : Nat) (es : List (Element α)) :
    placed (i + m) es = (placed m es).map fun p => (i + p.1, p.2) := by
  induction es generalizing m with
  | nil => rfl
  | cons e es ih =>
    rw [placed, placed, List.map_cons, Nat.add_assoc, ih]

/-- A sibling among those placed some lines further down. -/
theorem sibling?_add {n : LocalName} {k m j : Nat} {x : Element α} {es : List (Element α)}
    (h : sibling? n k m es = some (j, x)) (i : Nat) :
    sibling? n k (i + m) es = some (i + j, x) := by
  unfold sibling? at h ⊢
  rw [placed_add, List.filter_map, List.getElem?_map]
  exact Option.map_eq_some_iff.mpr ⟨(j, x), h, rfl⟩

/-! ## Where an element stands -/

/-- The line at which an element begins is the one that opens it. -/
theorem Element.getElem?_of_standsAt {x : Element α} {ls : List (Line α)} {j : Nat}
    (h : x.lines <+: ls.drop j) : ls[j]? = some x.startLine := by
  obtain ⟨tail, htail⟩ := h
  have hhead := congrArg List.head? htail
  rw [x.lines_eq, List.head?_drop] at hhead
  exact hhead.symm

/-- Every element of the trees of siblings begins at its line. -/
theorem standsAt_of_mem_forestNodes {es : List (Element α)} {i j : Nat} {x : Element α}
    (h : (j, x) ∈ forestNodes i es) : i ≤ j ∧ x.lines <+: (forestLines es).drop (j - i) := by
  induction es using forest_induction generalizing i with
  | nil => simp [forestNodes] at h
  | leaf label tag text es ih =>
    rw [forestNodes, Element.nodes, List.singleton_append, List.mem_cons] at h
    rw [forestLines]
    rcases h with h | h
    · obtain ⟨rfl, rfl⟩ := Prod.mk.inj h
      rw [Nat.sub_self, List.drop_zero]
      exact ⟨Nat.le_refl j, List.prefix_append _ _⟩
    -- Among the later siblings, behind the one line of the leaf.
    · rw [Element.lines, List.length_singleton] at h
      obtain ⟨hle, hbegins⟩ := ih h
      have hsub : j - i = j - (i + 1) + 1 := by omega
      rw [Element.lines, List.singleton_append, hsub, List.drop_succ_cons]
      exact ⟨by omega, hbegins⟩
  | inner label tag children closing es ihchildren ihes =>
    rw [forestNodes, Element.nodes, List.cons_append, List.mem_cons, List.mem_append] at h
    rw [forestLines]
    rcases h with h | h | h
    · obtain ⟨rfl, rfl⟩ := Prod.mk.inj h
      rw [Nat.sub_self, List.drop_zero]
      exact ⟨Nat.le_refl j, List.prefix_append _ _⟩
    -- Among the children, behind the start tag.
    · obtain ⟨hle, hbegins⟩ := ihchildren h
      have hsub : j - i = j - (i + 1) + 1 := by omega
      rw [Element.lines, List.cons_append, List.append_assoc, hsub, List.drop_succ_cons]
      exact ⟨by omega, hbegins.trans ((List.prefix_append _ _).drop _)⟩
    -- Among the later siblings, behind the end tag.
    · obtain ⟨hle, hbegins⟩ := ihes h
      have hsub : j - i - (Element.inner label tag children closing).lines.length =
          j - (i + (Element.inner label tag children closing).lines.length) := by omega
      refine ⟨by omega, ?_⟩
      rw [List.drop_append, List.drop_eq_nil_of_le (by omega), List.nil_append, hsub]
      exact hbegins

/-- Every element of a tree begins at its line, counted from 1. -/
theorem Element.standsAt_of_mem_nodes {root x : Element α} {i : Nat} (h : (i, x) ∈ root.nodes 1) :
    x.lines <+: root.lines.drop (i - 1) := by
  rw [← forestNodes_singleton] at h
  have hstands := (standsAt_of_mem_forestNodes h).2
  rwa [forestLines_singleton] at hstands

/-- The elements of a sibling's tree are among those of the siblings. -/
theorem nodes_subset_of_mem_placed {es : List (Element α)} {i j : Nat} {x : Element α}
    (h : (j, x) ∈ placed i es) : x.nodes j ⊆ forestNodes i es := by
  induction es generalizing i with
  | nil => simp [placed] at h
  | cons e es ih =>
    rw [placed, List.mem_cons] at h
    rw [forestNodes]
    rcases h with h | h
    · obtain ⟨rfl, rfl⟩ := Prod.mk.inj h
      exact List.subset_append_left _ _
    · exact List.Subset.trans (ih h) (List.subset_append_right _ _)

/-- A child is one of the elements below its parent, at the line it is placed at. -/
theorem Element.child?_nodes {x y : Element α} {s : PathStep} {k : Nat}
    (h : x.child? s = some (k, y)) (i : Nat) :
    y.nodes (i + k) ⊆ forestNodes (i + 1) x.children := by
  unfold child? at h
  split at h
  · exact absurd h (by simp)
  · have hmem := (List.mem_filter.mp (List.mem_of_getElem? (sibling?_add h i))).1
    exact nodes_subset_of_mem_placed hmem

/-- A child begins below its parent, at the line it is placed at. -/
theorem Element.child?_standsAt {x y : Element α} {s : PathStep} {k : Nat}
    (h : x.child? s = some (k, y)) : y.lines <+: x.lines.drop k := by
  have hmem : (1 + k, y) ∈ x.nodes 1 := by
    rw [x.nodes_eq]
    refine List.mem_cons_of_mem _ (child?_nodes h 1 ?_)
    rw [y.nodes_eq]
    exact List.mem_cons_self
  have hstands := standsAt_of_mem_nodes hmem
  rwa [Nat.add_sub_cancel_left] at hstands

/-! ## The element that a path denotes -/

/-- Steps that denote an element count from 1. -/
theorem Element.follow?_index_pos {path : List PathStep} {x : Element α} {i : Nat}
    {p : Nat × Element α} (h : x.follow? i path = some p) : ∀ s ∈ path, 1 ≤ s.index := by
  induction path generalizing x i with
  | nil => simp
  | cons s path ih =>
    obtain ⟨q, hq, hpath⟩ := Option.bind_eq_some_iff.mp h
    refine List.forall_mem_cons.mpr ⟨?_, ih hpath⟩
    unfold child? at hq
    split at hq
    · exact absurd hq (by simp)
    · omega

/-- A path that denotes an element begins with the root, and its other steps lead down from there.
-/
theorem Element.node?_eq_some {root : Element α} {path : List PathStep} {p : Nat × Element α} :
    root.node? path = some p ↔
      ∃ s rest, path = s :: rest ∧ s.name = root.name ∧ s.index = 1 ∧
        root.follow? 0 rest = some p := by
  cases path with
  | nil => simp [node?]
  | cons s path => simp [node?, and_assoc]

/-- The steps of a path that denotes an element count from 1. -/
theorem Element.node?_index_pos {root : Element α} {path : List PathStep} {p : Nat × Element α}
    (h : root.node? path = some p) : ∀ s ∈ path, 1 ≤ s.index := by
  obtain ⟨s, rest, rfl, -, hindex, hrest⟩ := node?_eq_some.mp h
  exact List.forall_mem_cons.mpr ⟨by omega, follow?_index_pos hrest⟩

/-- The elements below the element that steps denote are among those of the tree. -/
theorem Element.follow?_nodes {path : List PathStep} {x y : Element α} {i j : Nat}
    (h : x.follow? i path = some (j, y)) : y.nodes j ⊆ x.nodes i := by
  induction path generalizing x i with
  | nil =>
    obtain ⟨rfl, rfl⟩ := Prod.mk.inj (Option.some.inj h)
    exact List.Subset.refl _
  | cons s path ih =>
    obtain ⟨⟨k, z⟩, hz, hpath⟩ := Option.bind_eq_some_iff.mp h
    rw [x.nodes_eq]
    exact List.Subset.trans (ih hpath) (List.subset_cons_of_subset _ (child?_nodes hz i))

/-- Steps down from an element that stands some lines further down. -/
theorem Element.follow?_add {path : List PathStep} {x y : Element α} {i j : Nat}
    (h : x.follow? i path = some (j, y)) (m : Nat) :
    x.follow? (m + i) path = some (m + j, y) := by
  induction path generalizing x i with
  | nil =>
    obtain ⟨rfl, rfl⟩ := Prod.mk.inj (Option.some.inj h)
    rfl
  | cons s path ih =>
    obtain ⟨p, hp, hpath⟩ := Option.bind_eq_some_iff.mp h
    rw [follow?, hp, Option.bind_some, Nat.add_assoc]
    exact ih hpath

/-- The element that a path denotes is one of the tree. -/
theorem Element.node?_mem_nodes {root x : Element α} {path : List PathStep} {j : Nat}
    (h : root.node? path = some (j, x)) : (j + 1, x) ∈ root.nodes 1 := by
  obtain ⟨s, rest, -, -, -, hrest⟩ := node?_eq_some.mp h
  refine follow?_nodes (follow?_add hrest 1) ?_
  rw [nodes_eq, Nat.add_comm 1 j]
  exact List.mem_cons_self

/-- The element that a path denotes begins at its line. -/
theorem Element.node?_standsAt {root x : Element α} {path : List PathStep} {j : Nat}
    (h : root.node? path = some (j, x)) : x.lines <+: root.lines.drop j :=
  standsAt_of_mem_nodes (node?_mem_nodes h)

/-! ## The tags of a tree -/

/-- The tags of a row of siblings are those of the elements of their trees. -/
theorem mem_nodes_of_tag? {es : List (Element α)} {i : Nat} {l : Line α} {t : Tag}
    (hl : l ∈ forestLines es) (ht : l.tag? = some t) : ∃ p ∈ forestNodes i es, p.2.tag = t := by
  induction es using forest_induction generalizing i with
  | nil => simp [forestLines] at hl
  | leaf label tag text es ih =>
    rw [forestLines, Element.lines, List.singleton_append, List.mem_cons] at hl
    rw [forestNodes, Element.nodes, List.singleton_append]
    rcases hl with rfl | hl
    · exact ⟨_, List.mem_cons_self, Option.some.inj ht⟩
    · obtain ⟨p, hp, htag⟩ := ih hl
      exact ⟨p, List.mem_cons_of_mem _ hp, htag⟩
  | inner label tag children closing es ihchildren ihes =>
    rw [forestLines, Element.lines, List.cons_append, List.append_assoc, List.mem_cons,
      List.mem_append, List.singleton_append, List.mem_cons] at hl
    rw [forestNodes, Element.nodes, List.cons_append]
    rcases hl with rfl | hl | rfl | hl
    · exact ⟨_, List.mem_cons_self, Option.some.inj ht⟩
    · obtain ⟨p, hp, htag⟩ := ihchildren hl
      exact ⟨p, List.mem_cons_of_mem _ (List.mem_append_left _ hp), htag⟩
    -- The end tag is no start tag.
    · exact absurd ht (by simp [Line.tag?])
    · obtain ⟨p, hp, htag⟩ := ihes hl
      exact ⟨p, List.mem_cons_of_mem _ (List.mem_append_right _ hp), htag⟩

end StylesheetTrace.Markup
