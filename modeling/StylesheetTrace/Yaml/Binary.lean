import StylesheetTrace.Text.Quoted

/-!
# Bytes in YAML

Rows of bytes are written to the base 64: four digits of six bits give three bytes.  Characters that
are no digits are passed over.  Equal signs end a group of digits that is not full, and nothing
behind them is read.
-/

namespace StylesheetTrace.Yaml.Binary

open StylesheetTrace.Text

/-- Why digits give no bytes: the last group is not ended, or it has only one of the given number of
digits. -/
inductive DecodeError where
  | unended
  | single (digits : Nat)
  deriving Repr, DecidableEq

/-- The wording of the error. -/
def DecodeError.message : DecodeError → String
  | unended => "Incorrect padding"
  | single digits =>
    s!"Invalid base64-encoded string: number of data characters ({digits}) cannot be 1 more " ++
      "than a multiple of 4"

/-- The value of a digit. -/
def digit? (c : Char) : Option Nat :=
  let n := c.toNat
  if c.isUpper then some (n - 65)
  else if c.isLower then some (n - 71)
  else if c.isDigit then some (n + 4)
  else if c == '+' then some 62
  else if c == '/' then some 63
  else none

/-- The bytes read so far, with the digits of a group that is not full. -/
structure Group where
  /-- The bytes, in reverse. -/
  bytes : List Nat
  /-- How many digits of the group there are. -/
  digits : Nat
  /-- The bits that these digits have left. -/
  bits : Nat
  /-- How many equal signs follow them. -/
  signs : Nat
  deriving Repr, DecidableEq

namespace Group

/-- The group with one more digit. -/
def push (g : Group) (d : Nat) : Group :=
  match g.digits with
  | 0 => ⟨g.bytes, 1, d, 0⟩
  | 1 => ⟨(4 * g.bits + d / 16) :: g.bytes, 2, d % 16, 0⟩
  | 2 => ⟨(16 * g.bits + d / 4) :: g.bytes, 3, d % 4, 0⟩
  | _ => ⟨(64 * g.bits + d) :: g.bytes, 0, 0, 0⟩

/-- All bytes, where the text ends. -/
def finish (g : Group) : Except DecodeError (List Nat) :=
  match g.digits with
  | 0 => .ok g.bytes.reverse
  | 1 => .error (.single (g.bytes.length / 3 * 4 + 1))
  | _ => .error .unended

end Group

/-- All bytes of a text from a group on. -/
def decodeFrom (g : Group) : List Char → Except DecodeError (List Nat)
  | [] => g.finish
  | c :: rest =>
    if c == '=' then
      if g.digits < 2 then decodeFrom g rest
      else if g.digits + g.signs < 3 then decodeFrom { g with signs := g.signs + 1 } rest
      else .ok g.bytes.reverse
    else
      match digit? c with
      | none => decodeFrom g rest
      | some d => decodeFrom (g.push d) rest

/-- The bytes that a text writes. -/
def decode (s : List Char) : Except DecodeError (List Nat) := decodeFrom ⟨[], 0, 0, 0⟩ s

/-- A byte as it stands between quotes of the kind `quote`. -/
def shownByte (quote : Char) (b : Nat) : List Char :=
  if b < 128 then Text.quotedChar quote (Char.ofNat b) else '\\' :: 'x' :: hexDigits 2 b

/-- Bytes as messages show them. -/
def shown (bs : List Nat) : String :=
  let quote := quoteFor (bs.map Char.ofNat)
  String.ofList ('b' :: quote :: bs.flatMap (shownByte quote) ++ [quote])

end StylesheetTrace.Yaml.Binary
