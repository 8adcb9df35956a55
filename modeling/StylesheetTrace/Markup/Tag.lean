import StylesheetTrace.Text.Blank
import StylesheetTrace.Text.Scan

/-!
# Tags of a named element

The text of a document is searched for tags without being parsed, so that a truncated or broken
document is read as far as it goes.  A tag opens the element `name` when it begins with `<`, an
optional namespace prefix and `name`, and a blank, `/`, `>` or the end of the text follows; the tag
of an element closed at once also ends with `/>`.
-/

namespace StylesheetTrace.Markup

open StylesheetTrace.Text

/-- A character of a namespace prefix: an ASCII letter or digit, `_`, `.` or `-`. -/
def isPrefixChar (c : Char) : Bool :=
  c.isAlphanum || c == '_' || c == '.' || c == '-'

/-- A character of a namespace prefix without dots. -/
def isPlainPrefixChar (c : Char) : Bool :=
  c.isAlphanum || c == '_' || c == '-'

/-- A character that may begin a name: an ASCII letter or `_`. -/
def isNameStart (c : Char) : Bool :=
  c.isAlpha || c == '_'

/-- The name at the head of a text: its later characters are those of a prefix. -/
def name? : Reader (List Char) :=
  word? isNameStart isPrefixChar

/-- The text after a namespace prefix of characters in `ok` and its colon. -/
def afterPrefix? (ok : Char → Bool) (s : List Char) : Option (List Char) :=
  match s.dropWhile ok with
  | ':' :: rest => if (s.takeWhile ok).isEmpty then none else some rest
  | _ => none

/-- Reads `name` behind a namespace prefix and goes on with `next`, or else reads `name` without a
prefix and goes on. -/
def qualified {β : Type} (ok : Char → Bool) (name : List Char) (next : List Char → Option β)
    (s : List Char) : Option β :=
  match (afterPrefix? ok s).bind fun rest => (after? name rest).bind next with
  | some b => some b
  | none => (after? name s).bind next

/-- The name of a tag ends here. -/
def endsName : List Char → Bool
  | [] => true
  | c :: _ => isBlank c || c == '/' || c == '>'

/-- The inside of a tag up to its `>` and the text after that. -/
def tagInside? (s : List Char) : Option (List Char × List Char) :=
  match s.dropWhile (· != '>') with
  | _ :: rest => some (s.takeWhile (· != '>'), rest)
  | [] => none

/-- The inside of a tag ends with the slash of an element closed at once. -/
def endsWithSlash (inside : List Char) : Bool :=
  inside.getLast? == some '/'

/-- The text after the rest of a tag that ends with `/>`. -/
def afterSelfClose? (s : List Char) : Option (List Char) :=
  (tagInside? s).bind fun (inside, rest) => if endsWithSlash inside then some rest else none

/-- The text after the blanks and the `>` that end an end tag. -/
def afterEnd? (s : List Char) : Option (List Char) :=
  after? ['>'] (s.dropWhile isBlank)

/-- The beginning of a tag that opens `name`, up to the end of the name. -/
def opening? (ok : Char → Bool) (name : List Char) : Reader Unit
  | '<' :: s => qualified ok name (fun r => if endsName r then some ((), r) else none) s
  | _ => none

/-- A tag that opens `name` and closes it at once. -/
def selfClosing? (ok : Char → Bool) (name : List Char) : Reader Unit
  | '<' :: s =>
    qualified ok name
      (fun r => if endsName r then (afterSelfClose? r).map fun rest => ((), rest) else none) s
  | _ => none

/-- An end tag of `name`. -/
def closing? (ok : Char → Bool) (name : List Char) : Reader Unit
  | '<' :: '/' :: s => qualified ok name (fun r => (afterEnd? r).map fun rest => ((), rest)) s
  | _ => none

/-- The end tag whose name, prefix included, is exactly `tag`. -/
def exactClosing? (tag : List Char) : Reader Unit
  | '<' :: '/' :: s => ((after? tag s).bind afterEnd?).map fun rest => ((), rest)
  | _ => none

/-- The body of an element, which its end tag `tag` ends, and the text after that tag. -/
def body? (tag s : List Char) : Option (List Char × List Char) :=
  (leftmost? (exactClosing? tag) s).map fun (body, _, rest) => (body, rest)

end StylesheetTrace.Markup
