import StylesheetTrace.Text.Hex
import StylesheetTrace.Text.Lines
import StylesheetTrace.Text.Utf8

/-!
# Percent-encoding

In a URL a byte may be written as a percent sign and two hexadecimal digits.  The bytes of a decoded
text are read as UTF-8.
-/

namespace StylesheetTrace.Text.Percent

/-- The bytes of a text, with the escaped ones decoded. -/
def bytes : List Char → List Nat
  | '%' :: a :: b :: s =>
    match hexValue? a, hexValue? b with
    | some high, some low => (16 * high + low) :: bytes s
    | _, _ => '%'.toNat :: bytes (a :: b :: s)
  | c :: s => Utf8.encode c.toString ++ bytes s
  | [] => []

/-- The text that a percent-encoded text stands for. -/
def decode (s : List Char) : List Char := Utf8.decodeLossy (bytes s)

/-- A name or a value of a query, in which a plus sign stands for a space. -/
def decodeField (s : List Char) : String :=
  String.ofList (decode (s.map fun c => if c == '+' then ' ' else c))

/-- The names and the values of a query, in order; a name without an equals sign has an empty
value. -/
def query (s : List Char) : List (String × String) :=
  ((splitOn '&' s).filter fun part => !part.isEmpty).map fun part =>
    (decodeField (part.takeWhile (· != '=')), decodeField ((part.dropWhile (· != '=')).drop 1))

end StylesheetTrace.Text.Percent
