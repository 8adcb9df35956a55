import StylesheetTrace.Text.Unencodable
import StylesheetTrace.Text.Utf8
import StylesheetTrace.Yaml.Binary
import StylesheetTrace.Yaml.Breakdown

/-!
# What is wrong with a YAML text

A text is refused at a line, counted from 1, for one of the problems below.  Their wordings name the
characters and the tokens that were found instead of what the grammar asks for.
-/

namespace StylesheetTrace.Yaml

open StylesheetTrace.Text

/-- What should have stood where another character stands. -/
inductive Expected where
  | name
  | uri
  | uriEscape
  | tagClosing
  | tagHandle
  | space
  | digit
  | versionPoint
  | lineEnd
  | blockIndicator
  | hexDigits (count : Nat)
  deriving Repr, DecidableEq

/-- How messages call it. -/
def Expected.label : Expected → String
  | name => "alphabetic or numeric character"
  | uri => "URI"
  | uriEscape => "URI escape sequence of 2 hexdecimal numbers"
  | tagClosing => "'>'"
  | tagHandle => "'!'"
  | space => "' '"
  | digit => "a digit"
  | versionPoint => "a digit or '.'"
  | lineEnd => "a comment or a line break"
  | blockIndicator => "chomping or indentation indicators"
  | hexDigits n => s!"escape sequence of {n} hexdecimal numbers"

/-- What stands between it and what was found. -/
def Expected.pause : Expected → String
  | tagClosing | tagHandle => ""
  | _ => ","

/-- A part of a block collection that stands where none may begin. -/
inductive Misplaced where
  | sequenceEntry
  | mappingKey
  | mappingValue
  deriving Repr, DecidableEq

/-- How messages call it. -/
def Misplaced.label : Misplaced → String
  | sequenceEntry => "sequence entries"
  | mappingKey => "mapping keys"
  | mappingValue => "mapping values"

/-- The three kinds of nodes. -/
inductive NodeKind where
  | scalar
  | sequence
  | mapping
  deriving Repr, DecidableEq

/-- How messages call a kind of node. -/
def NodeKind.label : NodeKind → String
  | scalar => "scalar"
  | sequence => "sequence"
  | mapping => "mapping"

/-- Why a text is refused.  Tokens are given by their labels, values by their texts. -/
inductive Problem where
  | expected (what : Expected) (found : Char)
  | cannotStart (found : Char)
  | keyWithoutValue
  | misplaced (part : Misplaced)
  | zeroIndent
  | unknownEscape (found : Char)
  | endInQuotes
  | separatorInQuotes
  | uriEncoding (e : Utf8.DecodeError)
  | noContent (found : String)
  | blockNotEnded (found : String)
  | sequenceNotEnded (found : String)
  | mappingNotEnded (found : String)
  | noDocumentStart (found : String)
  | afterDocumentEnd (found : String)
  | repeatedVersion
  | foreignVersion
  | repeatedHandle (handle : String)
  | unknownHandle (handle : String)
  | unknownAlias (name : String)
  | furtherDocument
  | tooDeep (depth : Nat)
  | repeatedKey (key value first : String)
  | repeatedMember (key : String)
  | repeatedMerge (key : String)
  | mergeOf (kind : NodeKind)
  | mergeItem (kind : NodeKind)
  | wrongKind (wanted found : NodeKind)
  | noSequence (found : NodeKind)
  | noPair (found : NodeKind)
  | pairCount (found : Nat)
  | noKey
  | noMoment (text : String)
  | noBytes (e : Binary.DecodeError)
  | notAscii (u : Unencodable)
  | undetermined (tag : String)
  deriving Repr, DecidableEq

/-- A single character in quotes. -/
def quotedChar (c : Char) : String := quoted (String.singleton c)

/-- The wording of a problem. -/
def Problem.message : Problem → String
  | expected what found => s!"expected {what.label}{what.pause} but found {quotedChar found}"
  | cannotStart found => s!"found character {quotedChar found} that cannot start any token"
  | keyWithoutValue => "could not find expected ':'"
  | misplaced part => s!"{part.label} are not allowed here"
  | zeroIndent => "expected indentation indicator in the range 1-9, but found 0"
  | unknownEscape found => s!"found unknown escape character {quotedChar found}"
  | endInQuotes => "found unexpected end of stream"
  | separatorInQuotes => "found unexpected document separator"
  | uriEncoding e => e.message
  | noContent found => s!"expected the node content, but found {quoted found}"
  | blockNotEnded found => s!"expected <block end>, but found {quoted found}"
  | sequenceNotEnded found => s!"expected ',' or ']', but got {quoted found}"
  | mappingNotEnded found => s!"expected ',' or '\x7d', but got {quoted found}"
  | noDocumentStart found => s!"expected '<document start>', but found ({quoted found},)"
  | afterDocumentEnd found =>
    s!"found non-comment content after document end marker, ({quoted found},)"
  | repeatedVersion => "found duplicate YAML directive"
  | foreignVersion => "found incompatible YAML document (version 1.* is required)"
  | repeatedHandle handle => s!"duplicate tag handle {quoted handle}"
  | unknownHandle handle => s!"found undefined tag handle {quoted handle}"
  | unknownAlias name => s!"found undefined alias {quoted name}"
  | furtherDocument => "but found another document"
  | tooDeep depth =>
    s!"maximum depth of data structure exceeded ({depth}), " ++
      "if necessary increase YAML().max_depth"
  | repeatedKey key value first =>
    s!"found duplicate key \"{key}\" with value \"{value}\" (original value: \"{first}\")"
  | repeatedMember key => s!"found duplicate key \"{key}\""
  | repeatedMerge key => s!"found duplicate merge key \"{key}\""
  | mergeOf kind =>
    s!"expected a mapping or list of mappings for merging, but found {kind.label}"
  | mergeItem kind => s!"expected a mapping for merging, but found {kind.label}"
  | wrongKind wanted found => s!"expected a {wanted.label} node, but found {found.label}"
  | noSequence found => s!"expected a sequence, but found {found.label}"
  | noPair found => s!"expected a mapping of length 1, but found {found.label}"
  | pairCount found => s!"expected a single mapping item, but found {found} items"
  | noKey => "found unhashable key"
  | noMoment text => s!"failed to construct timestamp from \"{text}\""
  | noBytes e => "failed to decode base64 data: " ++ e.message
  | notAscii u => "failed to convert base64 data into ascii: " ++ u.message
  | undetermined tag => s!"could not determine a constructor for the tag {quoted tag}"

/-- Why a text is refused: for a problem on a line, for a block scalar whose second line is indented
further than its first one, which has no place, for a character that may not stand in any text, at
its position counted from 0, or because reading it breaks off. -/
inductive Refusal where
  | fault (problem : Problem) (line : Nat)
  | unevenBlock
  | unprintable (c : Char) (position : Nat)
  | broken (b : Breakdown)
  deriving Repr, DecidableEq

/-- A result, or why the text is refused. -/
abbrev Outcome := Except Refusal

/-- A result that may be missing for a breakdown. -/
def Outcome.ofBreakdown {α : Type} (r : Except Breakdown α) : Outcome α := r.mapError .broken

end StylesheetTrace.Yaml
