import StylesheetTrace.Yaml.Token

/-!
# Events of YAML

The events of a text are its documents and nodes in the order in which they begin and end.
-/

namespace StylesheetTrace.Yaml

/-- A tag in full. -/
structure TagName where
  /-- The tag. -/
  text : String
  /-- It was written with a handle. -/
  handled : Bool
  deriving Repr, DecidableEq

/-- What is said of a node before its content. -/
structure Properties where
  /-- The name of its anchor. -/
  anchor : Option String
  /-- Its tag. -/
  tag : Option TagName
  deriving Repr, DecidableEq

namespace Properties

/-- Nothing is said. -/
def none : Properties := ⟨.none, .none⟩

/-- The tag that leaves the type to the text of the node. -/
def openTag : String := "!"

/-- The type of the node is not given. -/
def isOpen (p : Properties) : Bool := p.tag.all fun t => t.text == openTag

/-- The type of a scalar in a style is told from its text. -/
def isUntyped (p : Properties) (style : Style) : Bool :=
  p.tag.elim (style == .plain) fun t => t.text == openTag

end Properties

/-- What an event is. -/
inductive EventKind where
  | streamStart
  | streamEnd
  | documentStart
  | documentEnd
  | aliasOf (name : String)
  | scalar (p : Properties) (text : List Char) (style : Style)
  | sequenceStart (p : Properties)
  | sequenceEnd
  | mappingStart (p : Properties)
  | mappingEnd
  deriving Repr, DecidableEq

/-- An event. -/
structure Event where
  /-- What happens. -/
  kind : EventKind
  /-- The line on which it begins. -/
  line : Nat
  deriving Repr, DecidableEq

end StylesheetTrace.Yaml
