import StylesheetTrace.Text.Quoted

/-!
# Texts that can not be encoded

ASCII has no bytes for the characters above U+007F, and UTF-8 none for half of a surrogate pair.  A
text that holds such characters is refused at the first row of them.
-/

namespace StylesheetTrace.Text

/-- An encoding of characters by bytes. -/
inductive Encoding where
  | ascii
  | utf8
  deriving Repr, DecidableEq

namespace Encoding

/-- How messages call the encoding. -/
def label : Encoding → String
  | ascii => "ascii"
  | utf8 => "utf-8"

/-- Why messages say that a character has no bytes. -/
def reason : Encoding → String
  | ascii => "ordinal not in range(128)"
  | utf8 => "surrogates not allowed"

/-- The character has bytes. -/
def covers (e : Encoding) (c : Char) : Bool :=
  match e with
  | ascii => decide (c.toNat < 128)
  | utf8 => (halfPair? c).isNone

end Encoding

/-- A row of characters without bytes. -/
structure Unencodable where
  /-- The encoding in which they have none. -/
  encoding : Encoding
  /-- The first of them. -/
  first : Char
  /-- Where it stands, counted from 0. -/
  position : Nat
  /-- How many they are. -/
  size : Nat
  deriving Repr, DecidableEq

namespace Unencodable

/-- The first row of characters of a text that have no bytes. -/
def find? (e : Encoding) (s : List Char) : Option Unencodable :=
  match s.dropWhile e.covers with
  | [] => none
  | c :: rest =>
    some ⟨e, c, (s.takeWhile e.covers).length, (rest.takeWhile fun c => !e.covers c).length + 1⟩

/-- The wording of the refusal. -/
def message (u : Unencodable) : String :=
  let found :=
    if u.size = 1 then s!"character '{String.ofList (codePointEscape u.first)}' in position "
    else s!"characters in position {u.position}-"
  let last := u.position + u.size - 1
  s!"'{u.encoding.label}' codec can't encode {found}{last}: {u.encoding.reason}"

end Unencodable

end StylesheetTrace.Text
