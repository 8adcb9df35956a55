import StylesheetTrace.Decimal.Nearest
import StylesheetTrace.Decimal.Shortest
import StylesheetTrace.Yaml.Binary
import StylesheetTrace.Yaml.Moment
import StylesheetTrace.Yaml.Problem
import StylesheetTrace.Yaml.Scalar

/-!
# Values of YAML

A mapping keeps the order of its keys.  Keys are compared by their values, whatever their types, but
a text of a type that is not known and a number that is none are only the same as themselves.
-/

namespace StylesheetTrace.Yaml

open StylesheetTrace.Text

/-- A text of a type that is not known. -/
structure TaggedText where
  /-- The number of the node from which it comes. -/
  source : Nat
  /-- The text. -/
  text : String
  /-- How it is written. -/
  style : Style
  /-- The type. -/
  tag : String
  deriving Repr, DecidableEq

/-- A value.  A number that is none has the number of its node, unless it is written by the word
for it.  An entry of a mapping knows the line of its key, unless it was merged or the mapping was
written as a sequence.  Pairs are a sequence of tuples.  A sequence or a mapping that is a key
itself is a tuple or a frozen mapping.  Inside of itself a collection is only known by its kind.
-/
inductive Value where
  | null
  | bool (b : Bool)
  | int (n : Int)
  | float (x : Float)
  | noNumber (source : Option Nat)
  | str (s : String)
  | bytes (bs : List Nat)
  | moment (m : Moment)
  | tagged (t : TaggedText)
  | seq (items : List Value)
  | pairs (items : List Value)
  | map (entries : List (Option Nat × Value × Value))
  | ordered (entries : List (Option Nat × Value × Value))
  | set (members : List Value)
  | tuple (items : List Value)
  | frozen (entries : List (Option Nat × Value × Value))
  | enclosing (kind : NodeKind)
  deriving Inhabited

/-- An entry of a mapping: the line of its key, the key and the value. -/
abbrev Entry := Option Nat × Value × Value

/-- A text of a type that is not known as messages show it. -/
def TaggedText.shown (t : TaggedText) : String :=
  s!"TaggedScalar(value={quoted t.text}, style={t.style.shown}, tag=Tag({quoted t.tag}))"

namespace Value

/-- The value of a real number, which comes from the node with a given number. -/
def ofReal (source : Nat) : Scalar.Real → Value
  | .noNumber => noNumber none
  | .number x => if x.isNaN then noNumber (some source) else float x

/-! ## Texts of values -/

/-- Texts with a comma and a blank between them. -/
def commas (texts : List String) : String := ", ".intercalate texts

mutual

/-- A value as messages show it inside of a list. -/
def shown : Value → String
  | null => "None"
  | bool b => if b then "True" else "False"
  | int n => toString n
  | float x => Decimal.text x
  | noNumber _ => "nan"
  | str s => quoted s
  | bytes bs => Binary.shown bs
  | moment m => m.shown
  | tagged t => t.shown
  | seq items | pairs items => "[" ++ commas (shownItems items []) ++ "]"
  | map entries | ordered entries => "\x7b" ++ commas (shownEntries ": " entries []) ++ "\x7d"
  | set members => "set(odict_keys([" ++ commas (shownItems members []) ++ "]))"
  | tuple [] => "()"
  | tuple [v] => "(" ++ shown v ++ ",)"
  | tuple (v :: w :: items) => "(" ++ commas (shownItems items [shown w, shown v]) ++ ")"
  | frozen [] => "ordereddict()"
  | frozen (e :: entries) =>
    "ordereddict([(" ++ "), (".intercalate (shownEntries ", " entries [shownEntry ", " e]) ++ ")])"
  | enclosing .mapping => "\x7b...\x7d"
  | enclosing _ => "[...]"

/-- Items as messages show them, behind those in `found`, which is in reverse. -/
def shownItems : List Value → List String → List String
  | [], found => found.reverse
  | v :: vs, found => shownItems vs (shown v :: found)

/-- An entry as messages show it. -/
def shownEntry (between : String) : Option Nat × Value × Value → String
  | (_, key, value) => shown key ++ between ++ shown value

/-- Entries as messages show them, behind those in `found`, which is in reverse. -/
def shownEntries (between : String) : List (Option Nat × Value × Value) → List String → List String
  | [], found => found.reverse
  | e :: es, found => shownEntries between es (shownEntry between e :: found)

end

/-- The text of a value. -/
def text : Value → String
  | str s => s
  | moment m => m.text
  | tagged t => t.text
  | v => v.shown

/-- The number has more digits than are written.  The power of two is compared first, since it is
known without counting digits. -/
def isLong (n : Nat) : Bool :=
  decide (3 * TooLong.limit < n.log2) && decide (Nat.pow 10 TooLong.limit ≤ n)

mutual

/-- The value holds a whole number with more digits than are written. -/
def hasLongNumber : Value → Bool
  | int n => isLong n.natAbs
  | seq vs | pairs vs | set vs | tuple vs => anyLongNumber vs
  | map es | ordered es | frozen es => anyLongEntry es
  | _ => false

/-- One of the values holds a number that is too long. -/
def anyLongNumber : List Value → Bool
  | [] => false
  | v :: vs => hasLongNumber v || anyLongNumber vs

/-- An entry holds a number that is too long. -/
def isLongEntry : Option Nat × Value × Value → Bool
  | (_, key, value) => hasLongNumber key || hasLongNumber value

/-- One of the entries holds a number that is too long. -/
def anyLongEntry : List (Option Nat × Value × Value) → Bool
  | [] => false
  | e :: es => isLongEntry e || anyLongEntry es

end

/-- Values can be written in a message. -/
def checkShown (vs : List Value) : Except Breakdown Unit :=
  if anyLongNumber vs then .error .longNumber else .ok ()

/-! ## Keys -/

/-- Why a value can not be looked up: it is a collection that can be changed. -/
def changeable? : Value → Option String
  | seq _ | enclosing .sequence => some "CommentedSeq"
  | map _ | enclosing _ => some "CommentedMap"
  | ordered _ => some "CommentedOrderedMap"
  | set _ => some "CommentedSet"
  | pairs _ => some "list"
  | _ => none

/-- The keys and the values of entries. -/
def parts (entries : List Entry) : List Value := entries.flatMap fun e => [e.2.1, e.2.2]

/-- A key can be looked up: neither it nor a part of it can be changed. -/
def checkKey (key : Value) : Except Breakdown Unit :=
  let found := match key with
    | tuple items => items.findSome? changeable?
    | frozen entries => (parts entries).findSome? changeable?
    | v => v.changeable?
  match found with
  | some type => .error (.unhashable type)
  | none => .ok ()

/-- Two values that are no collections are the same. -/
def sameScalar : Value → Value → Bool
  | null, null => true
  | str s, str t => s == t
  | bytes s, bytes t => s == t
  | moment m, moment n => m.same n
  | tagged s, tagged t => s.source == t.source
  | noNumber s, noNumber t => s == t
  | float x, float y => x == y
  | float x, v | v, float x => Decimal.whole? x == whole? v && (whole? v).isSome
  | v, w => whole? v == whole? w && (whole? v).isSome
where
  /-- The whole number that a value is; truth values are 1 and 0. -/
  whole? : Value → Option Int
    | bool b => some (if b then 1 else 0)
    | int n => some n
    | _ => none

/-- Two rows of values are the same, one by one. -/
def sameItems (vs ws : List Value) : Bool :=
  vs.length == ws.length && (vs.zip ws).all fun p => sameScalar p.1 p.2

/-- Two keys are the same. -/
def sameKey : Value → Value → Bool
  | tuple vs, tuple ws => sameItems vs ws
  | frozen es, frozen fs => sameItems (parts es) (parts fs)
  | v, w => sameScalar v w

/-- The entry of a key. -/
def entryOf? (entries : List Entry) (key : Value) : Option Entry :=
  entries.find? fun e => sameKey e.2.1 key

/-- The entries of a mapping, which are in reverse, with those that it merges, in order. -/
def mergeEntries (entries merged : List Entry) : List Entry :=
  (merged.foldl
    (fun es (_, key, value) => if (entryOf? es key).isSome then es else (none, key, value) :: es)
    entries).reverse

end Value

end StylesheetTrace.Yaml
