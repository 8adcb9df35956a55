import StylesheetTrace.Yaml.Comment
import StylesheetTrace.Yaml.Cursor
import StylesheetTrace.Yaml.Problem

/-!
# Tokens of YAML

A text is a row of tokens.  Some stand in the text; others are implied by indentation, or by a colon
behind the key of a mapping.  Comments are tokens too, since they take part in how far one has to
read before a token is known.
-/

namespace StylesheetTrace.Yaml

/-- How a scalar is written: plainly, in quotes of either kind, or as a block that keeps its line
breaks or folds them. -/
inductive Style where
  | plain
  | single
  | double
  | literal
  | folded
  deriving Repr, DecidableEq

/-- How messages show the style. -/
def Style.shown : Style → String
  | plain => "None"
  | single => "\"'\""
  | double => "'\"'"
  | literal => "'|'"
  | folded => "'>'"

/-- A tag as it is written. -/
structure TagText where
  /-- The handle, unless the tag is given in full. -/
  handle : Option String
  /-- What stands behind the handle. -/
  suffix : String
  deriving Repr, DecidableEq

/-- A line that begins with a percent sign. -/
inductive Directive where
  | version (major minor : Nat)
  | handle (handle start : String)
  | other
  deriving Repr, DecidableEq

/-- What a token is. -/
inductive TokenKind where
  | streamStart
  | streamEnd
  | directive (d : Directive)
  | documentStart
  | documentEnd
  | blockSequenceStart
  | blockMappingStart
  | blockEnd
  | flowSequenceStart
  | flowMappingStart
  | flowSequenceEnd
  | flowMappingEnd
  | key
  | value
  | blockEntry
  | flowEntry
  | aliasOf (name : String)
  | anchor (name : String)
  | tag (t : TagText)
  | scalar (text : List Char) (style : Style)
  | comment (c : Comment)
  deriving Repr, DecidableEq

namespace TokenKind

/-- How messages call a token. -/
def label : TokenKind → String
  | streamStart => "<stream start>"
  | streamEnd => "<stream end>"
  | directive _ => "<directive>"
  | documentStart => "<document start>"
  | documentEnd => "<document end>"
  | blockSequenceStart => "<block sequence start>"
  | blockMappingStart => "<block mapping start>"
  | blockEnd => "<block end>"
  | flowSequenceStart => "["
  | flowMappingStart => "\x7b"
  | flowSequenceEnd => "]"
  | flowMappingEnd => "\x7d"
  | key => "?"
  | value => ":"
  | blockEntry => "-"
  | flowEntry => ","
  | aliasOf _ => "<alias>"
  | anchor _ => "<anchor>"
  | tag _ => "<tag>"
  | scalar _ _ => "<scalar>"
  | comment _ => "<comment>"

end TokenKind

/-- A token. -/
structure Token where
  /-- What it is. -/
  kind : TokenKind
  /-- The line on which it begins. -/
  line : Nat
  /-- Its comments. -/
  comments : Option Comments
  deriving Repr, DecidableEq

namespace Token

/-- The token as a comment, if it is one. -/
def comment? (t : Token) : Option Comment :=
  match t.kind with
  | .comment c => some c
  | _ => none

/-- A comment `c` behind the token belongs to it: a scalar takes every comment, a colon and the end
of a flow collection those that begin on their line. -/
def takes (t : Token) (c : Comment) : Bool :=
  match t.kind with
  | .scalar _ _ => true
  | .value | .flowSequenceEnd | .flowMappingEnd => c.line == t.line
  | _ => false

end Token

namespace Cursor

/-- The text is refused at a position. -/
def fail {α : Type} (c : Cursor) (problem : Problem) : Outcome α :=
  .error (.fault problem c.line)

/-- The next character should have been another. -/
def refuse {α : Type} (c : Cursor) (what : Expected) : Outcome α :=
  c.fail (.expected what c.peek)

end Cursor

end StylesheetTrace.Yaml
