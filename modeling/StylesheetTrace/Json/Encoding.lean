import StylesheetTrace.Text.Surrogate

/-!
# The bytes of a JSON text

A JSON text begins with a character of ASCII, so that the zeros among its first bytes tell how it is
encoded: in units of one byte, of two or of four, the least or the most significant byte first.
-/

namespace StylesheetTrace.Json

open StylesheetTrace.Text

/-- How many bytes a code unit has, and whether the least significant of them comes first. -/
inductive Encoding where
  | bytes
  | pairs (littleEndian : Bool)
  | quads (littleEndian : Bool)
  deriving Repr, DecidableEq

namespace Encoding

/-- The encoding of a text by its first four bytes, of which some may be missing. -/
def ofHead (size : Nat) (head : List Nat) : Encoding :=
  match head with
  | [0, 0, _, _] => quads false
  | [0, _, _, _] => pairs false
  | [_, 0, 0, 0] => quads true
  | [_, 0, _, _] => pairs true
  | [0, _] => if size = 2 then pairs false else bytes
  | [_, 0] => if size = 2 then pairs true else bytes
  | _ => bytes

/-- The code units of two bytes each; there are none of an odd number of bytes. -/
def pairUnits? (littleEndian : Bool) : List Nat → List Nat → Option (List Nat)
  | [], found => some found.reverse
  | a :: b :: rest, found =>
    pairUnits? littleEndian rest ((if littleEndian then a + 256 * b else 256 * a + b) :: found)
  | _, _ => none

/-- The characters of code units of two bytes, behind those in `found`, which is in reverse.  Half
of a pair may stand alone.  -/
def ofPairUnits : List Nat → List Char → List Char
  | [], found => found.reverse
  | high :: low :: rest, found =>
    if isHighSurrogate high && isLowSurrogate low then
      ofPairUnits rest (joinedPair high low :: found)
    else ofPairUnits (low :: rest) (charOrStandIn high :: found)
  | [unit], found => (charOrStandIn unit :: found).reverse

/-- The characters of code units of four bytes, behind those in `found`, which is in reverse. -/
def ofQuads? (littleEndian : Bool) : List Nat → List Char → Option (List Char)
  | [], found => some found.reverse
  | a :: b :: c :: d :: rest, found =>
    let bytes := if littleEndian then [d, c, b, a] else [a, b, c, d]
    let n := bytes.foldl (fun n b => 256 * n + b) 0
    if n < 0x110000 then ofQuads? littleEndian rest (charOrStandIn n :: found) else none
  | _, _ => none

end Encoding

/-- The text without a byte order mark. -/
def dropMark (s : List Char) : List Char := if s.head? == some '\ufeff' then s.drop 1 else s

/-- The text that bytes encode, if they encode one.  Only in front of units of one byte a byte order
mark may stand. -/
def textOfBytes? (bytes : ByteArray) : Option (List Char) :=
  match Encoding.ofHead bytes.size ((bytes.extract 0 4).toList.map UInt8.toNat) with
  | .bytes => (String.fromUTF8? bytes).map fun s => dropMark s.toList
  | .pairs littleEndian =>
    (Encoding.pairUnits? littleEndian (bytes.toList.map UInt8.toNat) []).map fun units =>
      Encoding.ofPairUnits units []
  | .quads littleEndian =>
    Encoding.ofQuads? littleEndian (bytes.toList.map UInt8.toNat) []

end StylesheetTrace.Json
