import StylesheetTrace.Yaml.EventStream
import StylesheetTrace.Yaml.Tag

/-!
# The document of a text

The events of the one document of a text make a node.  The nodes of a text are numbered as they
begin.  An alias stands for the very node of its anchor; inside that node it only tells of which
kind the node is.  Nodes may be nested only so deeply.
-/

namespace StylesheetTrace.Yaml

/-- What every node has. -/
structure NodeHead where
  /-- Its number in the document. -/
  number : Nat
  /-- Its type. -/
  tag : Tag
  /-- An anchor names it. -/
  anchored : Bool
  /-- The line on which it begins. -/
  line : Nat
  deriving Repr, DecidableEq

/-- A node.  One that is enclosed by itself is not repeated. -/
inductive Node where
  | scalar (head : NodeHead) (text : List Char) (style : Style)
  | sequence (head : NodeHead) (items : List Node)
  | mapping (head : NodeHead) (pairs : List (Node × Node))
  | enclosing (head : NodeHead) (kind : NodeKind)
  deriving Repr

namespace Node

/-- The head of a node. -/
def head : Node → NodeHead
  | scalar head _ _ | sequence head _ | mapping head _ | enclosing head _ => head

/-- The kind of a node. -/
def kind : Node → NodeKind
  | scalar _ _ _ => .scalar
  | sequence _ _ => .sequence
  | mapping _ _ => .mapping
  | enclosing _ kind => kind

/-- The line on which a node begins. -/
def line (n : Node) : Nat := n.head.line

/-! ## Nodes in messages -/

/-- A node as messages show it, by the name of its kind, its type and its content. -/
def shownAs (kind : String) (head : NodeHead) (content : String) : String :=
  s!"{kind}(tag={Text.quoted head.tag.name}, value={content})"

/-- Texts in square brackets. -/
def bracketed (texts : List String) : String := "[" ++ ", ".intercalate texts ++ "]"

mutual

/-- A node as messages show it. -/
def shown : Node → String
  | scalar head text _ => shownAs "ScalarNode" head (Text.quoted (String.ofList text))
  | sequence head items => shownAs "SequenceNode" head (bracketed (shownItems items []))
  | mapping head pairs => shownAs "MappingNode" head (bracketed (shownPairs pairs []))
  | enclosing _ _ => "[...]"

/-- Nodes as messages show them, behind those in `found`, which is in reverse. -/
def shownItems : List Node → List String → List String
  | [], found => found.reverse
  | n :: ns, found => shownItems ns (shown n :: found)

/-- A pair of nodes as messages show it. -/
def shownPair : Node × Node → String
  | (key, value) => s!"({shown key}, {shown value})"

/-- Pairs of nodes as messages show them, behind those in `found`, which is in reverse. -/
def shownPairs : List (Node × Node) → List String → List String
  | [], found => found.reverse
  | p :: ps, found => shownPairs ps (shownPair p :: found)

end

/-- The content of a node as messages show it. -/
def content : Node → String
  | scalar _ text _ => String.ofList text
  | sequence _ items => bracketed (shownItems items [])
  | mapping _ pairs => bracketed (shownPairs pairs [])
  | enclosing _ _ => "[...]"

end Node

/-! ## Composing nodes -/

/-- The parts of a collection that has begun, in reverse. -/
inductive Parts where
  | items (items : List Node)
  | pairs (key : Option Node) (pairs : List (Node × Node))
  deriving Repr

/-- A collection that has begun. -/
structure OpenNode where
  /-- What it has like every node. -/
  head : NodeHead
  /-- The name of its anchor. -/
  anchor : Option String
  /-- The parts that it has so far. -/
  parts : Parts
  deriving Repr

namespace OpenNode

/-- The kind of the collection. -/
def kind (o : OpenNode) : NodeKind :=
  match o.parts with
  | .items _ => .sequence
  | .pairs _ _ => .mapping

/-- The collection with a further part. -/
def add (o : OpenNode) (n : Node) : OpenNode :=
  match o.parts with
  | .items items => { o with parts := .items (n :: items) }
  | .pairs none pairs => { o with parts := .pairs (some n) pairs }
  | .pairs (some key) pairs => { o with parts := .pairs none ((key, n) :: pairs) }

/-- The whole collection. -/
def close (o : OpenNode) : Node :=
  match o.parts with
  | .items items => .sequence o.head items.reverse
  | .pairs _ pairs => .mapping o.head pairs.reverse

end OpenNode

/-- What was composed so far. -/
structure Composition where
  /-- The collections that have begun, innermost first. -/
  stack : List OpenNode
  /-- The nodes that the names of anchors stand for. -/
  anchors : List (String × Node)
  /-- How many nodes there are. -/
  count : Nat
  /-- A document has begun. -/
  begun : Bool
  /-- The version of YAML that was declared last. -/
  version : Option (Nat × Nat)
  /-- The node of the document, once it has ended. -/
  root : Option Node
  deriving Repr

namespace Composition

/-- Nothing was composed yet. -/
def start : Composition := ⟨[], [], 0, false, none, none⟩

/-- How deeply nodes may be nested. -/
def maxDepth : Nat := 5

/-- The composition with a whole node at its place. -/
def place (c : Composition) (n : Node) : Composition :=
  match c.stack with
  | [] => { c with root := some n }
  | o :: rest => { c with stack := o.add n :: rest }

/-- The composition with a meaning for the name of an anchor. -/
def bind (c : Composition) (anchor : Option String) (n : Node) : Composition :=
  match anchor with
  | none => c
  | some name => { c with anchors := (name, n) :: c.anchors }

/-- The composition with the head of a new node, which may begin at the present depth. -/
def begin (c : Composition) (p : Properties) (tag : Outcome Tag) (line : Nat) :
    Outcome (NodeHead × Composition) := do
  let depth := c.stack.length + 1
  if depth > maxDepth then throw (.fault (.tooDeep depth) line)
  pure (⟨c.count, ← tag, p.anchor.isSome, line⟩, { c with count := c.count + 1 })

/-- The type of a scalar. -/
def scalarTag (c : Composition) (p : Properties) (text : List Char) (style : Style) :
    Outcome Tag :=
  if p.isUntyped style then
    Outcome.ofBreakdown ((Version.ofNumbers c.version).map fun v => .ofText v text)
  else .ok (p.tag.elim .str Tag.ofName)

/-- A scalar stands at the present place. -/
def scalar (c : Composition) (p : Properties) (text : List Char) (style : Style) (line : Nat) :
    Outcome Composition := do
  let (head, c) ← c.begin p (c.scalarTag p text style) line
  let n := Node.scalar head text style
  pure ((c.bind p.anchor n).place n)

/-- A collection begins; its type is `tag` if it is left open. -/
def enter (c : Composition) (p : Properties) (tag : Tag) (parts : Parts) (line : Nat) :
    Outcome Composition := do
  let tag := if p.isOpen then tag else p.tag.elim tag Tag.ofName
  let (head, c) ← c.begin p (.ok tag) line
  let o : OpenNode := ⟨head, p.anchor, parts⟩
  let c := c.bind p.anchor (.enclosing head o.kind)
  pure { c with stack := o :: c.stack }

/-- The composition in which a collection that has ended stands for itself where an anchor names
it. -/
def settle (c : Composition) (o : OpenNode) : Composition :=
  if o.anchor.isNone then c
  else
    let settled (n : Node) : Node :=
      match n with
      | .enclosing head _ => if head.number = o.head.number then o.close else n
      | _ => n
    { c with anchors := c.anchors.map fun a => (a.1, settled a.2) }

/-- The innermost collection ends. -/
def leave (c : Composition) : Composition :=
  match c.stack with
  | [] => c
  | o :: rest => (settle { c with stack := rest } o).place o.close

/-- The node that an alias stands for. -/
def aliased (c : Composition) (name : String) (line : Nat) : Outcome Node :=
  match c.anchors.lookup name with
  | none => .error (.fault (.unknownAlias name) line)
  | some n => .ok n

/-- The composition after one more event, read under a declared version. -/
def step (c : Composition) (version : Option (Nat × Nat)) (e : Event) : Outcome Composition :=
  let c := { c with version }
  match e.kind with
  | .streamStart | .streamEnd | .documentEnd => .ok c
  | .documentStart =>
    if c.begun then .error (.fault .furtherDocument e.line) else .ok { c with begun := true }
  | .aliasOf name => (c.aliased name e.line).map c.place
  | .scalar p text style => c.scalar p text style e.line
  | .sequenceStart p => c.enter p .seq (.items []) e.line
  | .mappingStart p => c.enter p .map (.pairs none []) e.line
  | .sequenceEnd | .mappingEnd => .ok c.leave

end Composition

/-- The document that a text holds. -/
structure Document where
  /-- The version of YAML by which it is read. -/
  version : Version
  /-- Its node. -/
  root : Node
  deriving Repr

namespace Document

/-- The document of a composition, if there is one. -/
def ofComposition (c : Composition) : Outcome (Option Document) :=
  match c.root with
  | none => .ok none
  | some root =>
    Outcome.ofBreakdown ((Version.ofNumbers c.version).map fun version => some ⟨version, root⟩)

/-- A character that may stand in a text. -/
def isAllowed (c : Char) : Bool :=
  let n := c.toNat
  decide (n = 9 ∨ n = 10 ∨ n = 13 ∨ (0x20 ≤ n ∧ n ≤ 0x7e) ∨ n = 0x85 ∨ (0xa0 ≤ n ∧ n ≤ 0xfffd) ∨
    0x10000 ≤ n)

/-- The document that a text holds, which may be none. -/
def ofText (s : List Char) : Outcome (Option Document) :=
  match s.dropWhile isAllowed with
  | c :: _ => .error (.unprintable c (s.takeWhile isAllowed).length)
  | [] => foldEvents Composition.step s .start >>= ofComposition

end Document

end StylesheetTrace.Yaml
