import StylesheetTrace.Yaml.Node
import StylesheetTrace.Yaml.Value

/-!
# The value of a document

A node is evaluated once, however many aliases stand for it.  A collection comes into being before
it is filled in.  In a mapping everything is filled in at once, keys and merges as well.  Elsewhere
a collection is filled in later, after everything that came into being before it; so a refusal that
stands further back in the text can come first.
-/

namespace StylesheetTrace.Yaml

/-- Refusals that come later: the first one of every round in which collections are filled in. -/
abbrev Later := List (Option Refusal)

/-- Refusals that come later, where two parts of a document are evaluated one after the other. -/
def Later.both : Later → Later → Later
  | [], l | l, [] => l
  | x :: l, y :: m => x.or y :: both l m

/-- What is known while a document is evaluated. -/
structure Progress where
  /-- The values of nodes that an anchor names, by their numbers. -/
  known : List (Nat × Value)
  /-- The refusals that come later. -/
  later : Later

/-- A step of the evaluation. -/
abbrev Evaluation (α : Type) := StateT Progress Outcome α

namespace Evaluation

/-- The text is refused on a line. -/
def refuse {α : Type} (problem : Problem) (line : Nat) : Evaluation α :=
  throw (.fault problem line)

/-- A result that may be missing for a breakdown. -/
def ofBreakdown {α : Type} (r : Except Breakdown α) : Evaluation α :=
  liftM (Outcome.ofBreakdown r)

/-- Evaluates a node, unless that was done before. -/
def once (head : NodeHead) (e : Evaluation Value) : Evaluation Value := do
  if !head.anchored then e
  else
    match (← get).known.lookup head.number with
    | some v => pure v
    | none =>
      let v ← e
      modify fun p => { p with known := (head.number, v) :: p.known }
      pure v

/-- Fills a collection in, at once if `deep`, or else in the next round, so that until then it stays
as it is. -/
def fill {α : Type} (deep : Bool) (unfilled : α) (e : Evaluation α) : Evaluation α := fun p =>
  if deep then e p
  else
    match e { p with later := [] } with
    | .error r => .ok (unfilled, { p with later := p.later.both [some r] })
    | .ok (a, q) => .ok (a, { q with later := p.later.both (none :: q.later) })

/-- Fills in a collection of a type that is not known.  Whatever breaks that off is told as a fault
of the type. -/
def guess {α : Type} (head : NodeHead) (e : Evaluation α) : Evaluation α := fun p =>
  (e p).mapError fun _ => .fault (.undetermined head.tag.name) head.line

/-! ## Scalars -/

/-- The bytes that a scalar writes. -/
def bytes (content : List Char) (line : Nat) : Evaluation Value :=
  match Text.Unencodable.find? .ascii content with
  | some u => refuse (.notAscii u) line
  | none =>
    match Binary.decode content with
    | .ok bs => pure (.bytes bs)
    | .error e => refuse (.noBytes e) line

/-- The moment that a scalar writes. -/
def moment (text : List Char) (line : Nat) : Evaluation Value :=
  match Moment.read? text with
  | none => refuse (.noMoment (String.ofList text)) line
  | some m => ofBreakdown (m.check.map .moment)

/-- The value of a scalar.  Marks of folded breaks are left out, but not where a moment is read. -/
def ofScalar (v : Version) (deep : Bool) (head : NodeHead) (text : List Char) (style : Style) :
    Evaluation Value :=
  let content := if style == .folded then text.filter (· != foldMark) else text
  match head.tag with
  | .null => pure .null
  | .bool => ofBreakdown ((Scalar.truth content).map fun b =>
      if head.anchored then .int (if b then 1 else 0) else .bool b)
  | .int => ofBreakdown ((Scalar.whole v content).map .int)
  | .float => ofBreakdown ((Scalar.real v content).map (.ofReal head.number))
  | .str => pure (.str (String.ofList content))
  | .binary => bytes content head.line
  | .timestamp => moment text head.line
  | .seq => fill deep (.seq []) (refuse (.wrongKind .sequence .scalar) head.line)
  | .map => fill deep (.map []) (refuse (.wrongKind .mapping .scalar) head.line)
  | .pairs => fill deep (.pairs []) (refuse (.noSequence .scalar) head.line)
  | .set | .omap => throw (.broken .scalarCollection)
  | .merge | .value | .other _ =>
    pure (.tagged ⟨head.number, String.ofList content, style, head.tag.name⟩)

/-! ## Collections -/

/-- The value of a key, if the key is of the type of the sign for a value, which is a text there. -/
def signKey? (n : Node) : Option (Evaluation Value) :=
  if n.head.tag != .value then none
  else
    match n with
    | .scalar head text style => some (ofScalar .v12 true { head with tag := .str } text style)
    | n => some (refuse (.wrongKind .scalar n.kind) n.line)

/-- The value as a key of a mapping. -/
def asKey (v : Value) (line : Nat) : Evaluation Value :=
  match v with
  | .seq items => pure (.tuple items)
  | .map entries | .ordered entries => pure (.frozen entries)
  | .enclosing .mapping => pure (.frozen [])
  | .enclosing _ => pure (.tuple [])
  | .pairs _ => throw (.broken .keyOfPairs)
  | .set _ => refuse .noKey line
  | v => pure v

/-- The value as a member of a set. -/
def asMember (v : Value) (line : Nat) : Evaluation Value :=
  match v with
  | .seq items | .pairs items => pure (.tuple items)
  | .enclosing .sequence => pure (.tuple [])
  | .map _ | .ordered _ | .set _ | .enclosing _ => refuse .noKey line
  | v => pure v

/-- The entries of a mapping with one more, of a key that it has not. -/
def addEntry (entries : List Entry) (key value : Value) (line : Nat) :
    Evaluation (List Entry) := do
  ofBreakdown key.checkKey
  match Value.entryOf? entries key with
  | some (_, _, first) =>
    ofBreakdown (Value.checkShown [key, value, first])
    refuse (.repeatedKey key.text value.text first.text) line
  | none => pure ((some line, key, value) :: entries)

/-- The members of a set with one more, which it has not. -/
def addMember (members : List Value) (key : Value) (line : Nat) : Evaluation (List Value) := do
  ofBreakdown key.checkKey
  if members.any fun m => Value.sameKey m key then
    ofBreakdown (Value.checkShown [key])
    refuse (.repeatedMember key.text) line
  else pure (key :: members)

/-- The entries of a mapping that is written as a sequence with one more, of a key that it has
not. -/
def addOrdered (entries : List Entry) (key : Value) (value : Evaluation Value) :
    Evaluation (List Entry) := do
  ofBreakdown key.checkKey
  if (Value.entryOf? entries key).isSome then throw (.broken .repeatedPart)
  pure ((none, key, ← value) :: entries)

/-- The entries of a mapping, which are in reverse, with those of the mappings that it merges, in
order. -/
def applyMerges (entries : List Entry) (merged : List Value) : Evaluation (List Entry) := do
  let merged ← merged.mapM fun v =>
    match v with
    | .map es => (pure es : Evaluation (List Entry))
    | .set _ => throw (.broken .mergeOfSet)
    | _ => pure []
  pure (Value.mergeEntries entries merged.flatten)

/-- The entries of a mapping: those that it merges are evaluated before its own. -/
def withMerges (merged : Evaluation (List Value)) (own : Evaluation (List Entry)) :
    Evaluation (List Entry) := do
  let merged ← merged
  applyMerges (← own) merged

mutual

/-- The value of a node, whose parts are filled in at once if `deep`. -/
def ofNode (v : Version) (deep : Bool) : Node → Evaluation Value
  | .enclosing _ kind => pure (.enclosing kind)
  | .scalar head text style => once head (ofScalar v deep head text style)
  | .sequence head items => once head <|
    match head.tag with
    | .seq => fill deep (.seq []) (.seq <$> ofItems v deep items [])
    | .omap => fill deep (.ordered []) (.ordered <$> ofOrdered v deep items [])
    | .pairs => fill deep (.pairs []) (.pairs <$> ofPairItems v deep items [])
    | .map => fill deep (.map []) (refuse (.wrongKind .mapping .sequence) head.line)
    | .set => fill deep (.set []) (refuse (.wrongKind .mapping .sequence) head.line)
    | .timestamp => refuse (.noMoment (Node.sequence head items).content) head.line
    | tag =>
      if tag.isScalar then refuse (.wrongKind .scalar .sequence) head.line
      else fill deep (.seq []) (guess head (.seq <$> ofItems v deep items []))
  | .mapping head ps => once head <|
    match head.tag with
    | .map =>
      fill deep (.map [])
        (.map <$> withMerges (ofMerges v ps false []) (ofPairs v true ps []))
    | .set => fill deep (.set []) (.set <$> ofMembers v deep ps [])
    | .seq => fill deep (.seq []) (refuse (.wrongKind .sequence .mapping) head.line)
    | .omap => fill deep (.ordered []) (refuse (.noSequence .mapping) head.line)
    | .pairs => fill deep (.pairs []) (refuse (.noSequence .mapping) head.line)
    | .timestamp => refuse (.noMoment (Node.mapping head ps).content) head.line
    | tag =>
      if tag.isScalar then refuse (.wrongKind .scalar .mapping) head.line
      else
        fill deep (.map [])
          (guess head (.map <$> withMerges (ofMerges v ps false []) (ofPairs v deep ps [])))

/-- The values of nodes, behind those in `found`, which is in reverse. -/
def ofItems (v : Version) (deep : Bool) : List Node → List Value → Evaluation (List Value)
  | [], found => pure found.reverse
  | n :: ns, found => do
    let a ← ofNode v deep n
    ofItems v deep ns (a :: found)

/-- The own entries of a mapping, in front of those in `found`, in reverse. -/
def ofPairs (v : Version) (deep : Bool) : List (Node × Node) → List Entry →
    Evaluation (List Entry)
  | [], found => pure found
  | p :: ps, found => do
    let found ← ofPair v deep p found
    ofPairs v deep ps found

/-- The entry of a pair, in front of those in `found`.  A merge has none of its own. -/
def ofPair (v : Version) (deep : Bool) : Node × Node → List Entry → Evaluation (List Entry)
  | (key, value), found => do
    if key.head.tag == .merge then pure found
    else
      let k ← (signKey? key).getD (ofNode v true key)
      let k ← asKey k key.line
      let a ← ofNode v deep value
      addEntry found k a key.line

/-- The members of a set, behind those in `found`, which is in reverse. -/
def ofMembers (v : Version) (deep : Bool) : List (Node × Node) → List Value →
    Evaluation (List Value)
  | [], found => pure found.reverse
  | p :: ps, found => do
    let found ← ofMember v deep p found
    ofMembers v deep ps found

/-- The member of a set that a pair gives, in front of those in `found`.  The value of the pair has
to have one, but does not count. -/
def ofMember (v : Version) (deep : Bool) : Node × Node → List Value → Evaluation (List Value)
  | (key, value), found => do
    let k ← ofNode v true key
    let k ← asMember k key.line
    let _ ← ofNode v deep value
    addMember found k key.line

/-- The entries of a mapping that is written as a sequence, behind those in `found`, which is in
reverse. -/
def ofOrdered (v : Version) (deep : Bool) : List Node → List Entry → Evaluation (List Entry)
  | [], found => pure found.reverse
  | n :: ns, found => do
    let found ← ofOrderedItem v deep n found
    ofOrdered v deep ns found

/-- The entry of an item of such a sequence, in front of those in `found`. -/
def ofOrderedItem (v : Version) (deep : Bool) : Node → List Entry → Evaluation (List Entry)
  | .mapping _ [p], found => ofOrderedPair v deep p found
  | .mapping head ps, _ => refuse (.pairCount ps.length) head.line
  | n, _ => refuse (.noPair n.kind) n.line

/-- The entry of the one pair of such an item, in front of those in `found`. -/
def ofOrderedPair (v : Version) (deep : Bool) : Node × Node → List Entry →
    Evaluation (List Entry)
  | (key, value), found => do
    let k ← ofNode v true key
    addOrdered found k (ofNode v deep value)

/-- The pairs that the items of a sequence give, behind those in `found`, which is in reverse. -/
def ofPairItems (v : Version) (deep : Bool) : List Node → List Value → Evaluation (List Value)
  | [], found => pure found.reverse
  | n :: ns, found => do
    let a ← ofPairItem v deep n
    ofPairItems v deep ns (a :: found)

/-- The pair that an item of such a sequence gives. -/
def ofPairItem (v : Version) (deep : Bool) : Node → Evaluation Value
  | .mapping _ [p] => ofTuple v deep p
  | .mapping head ps => refuse (.pairCount ps.length) head.line
  | n => refuse (.noPair n.kind) n.line

/-- A pair of values. -/
def ofTuple (v : Version) (deep : Bool) : Node × Node → Evaluation Value
  | (key, value) => do
    let k ← ofNode v deep key
    let a ← ofNode v deep value
    pure (.tuple [k, a])

/-- What a mapping merges, behind the values in `found`, which are in reverse.  Only one key may ask
for it; `asked` tells that one did. -/
def ofMerges (v : Version) : List (Node × Node) → Bool → List Value → Evaluation (List Value)
  | [], _, found => pure found.reverse
  | p :: ps, asked, found => do
    if p.1.head.tag != .merge then ofMerges v ps asked found
    else if asked then refuse (.repeatedMerge p.1.content) p.1.line
    else
      let found ← ofMerge v p found
      ofMerges v ps true found

/-- What the value of a merge gives, in front of the values in `found`, in reverse. -/
def ofMerge (v : Version) : Node × Node → List Value → Evaluation (List Value)
  | (_, .sequence _ items), found => ofMergeItems v items found
  | (_, .mapping head ps), found => do
    let a ← ofNode v true (.mapping head ps)
    pure (a :: found)
  | (_, .enclosing _ _), found => pure found
  | (_, n), _ => refuse (.mergeOf n.kind) n.line

/-- What the mappings of a sequence give together, in front of the values in `found`, in reverse. -/
def ofMergeItems (v : Version) : List Node → List Value → Evaluation (List Value)
  | [], found => pure found
  | n :: ns, found => do
    if n.kind != .mapping then refuse (.mergeItem n.kind) n.line
    else
      let a ← ofNode v true n
      ofMergeItems v ns (a :: found)

end

end Evaluation

namespace Value

/-- The value of a document. -/
def ofDocument (d : Document) : Outcome Value :=
  match Evaluation.ofNode d.version false d.root ⟨[], []⟩ with
  | .error e => .error e
  | .ok (v, p) =>
    match p.later.findSome? id with
    | some e => .error e
    | none => .ok v

/-- The value of the document that a text holds; without a document it is null. -/
def ofText (s : List Char) : Outcome Value := do
  match ← Document.ofText s with
  | none => pure null
  | some d => ofDocument d

end Value

end StylesheetTrace.Yaml
