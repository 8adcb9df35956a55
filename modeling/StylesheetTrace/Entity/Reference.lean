import StylesheetTrace.Entity.Names
import StylesheetTrace.Text.Hex
import StylesheetTrace.Text.Number
import StylesheetTrace.Text.Scan

/-!
# Character references

A reference is an ampersand with a decimal number, a hexadecimal number or a name; the semicolon at
its end may be missing.  Reading a text replaces its references as the HTML standard lays down: code
points of the C1 block stand for the characters of the western code page, surrogates and numbers
past the last code point for the replacement character, and other controls and noncharacters for
nothing.  Of a name that is not in the list, the longest beginning that is in it is replaced.
Writing a text escapes the ampersand, the angle brackets and, on demand, both quotes.
-/

namespace StylesheetTrace.Entity

open StylesheetTrace.Text

/-- The characters for which the code points 0x80 to 0x9f stand. -/
def codePage : List Nat :=
  [0x20ac, 0x81, 0x201a, 0x192, 0x201e, 0x2026, 0x2020, 0x2021, 0x2c6, 0x2030, 0x160, 0x2039, 0x152,
   0x8d, 0x17d, 0x8f, 0x90, 0x2018, 0x2019, 0x201c, 0x201d, 0x2022, 0x2013, 0x2014, 0x2dc, 0x2122,
   0x161, 0x203a, 0x153, 0x9d, 0x17e, 0x178]

/-- A control or a noncharacter: as a reference it stands for nothing. -/
def isInvalid (n : Nat) : Bool :=
  decide ((1 ≤ n ∧ n ≤ 8) ∨ n = 0xb ∨ (0xe ≤ n ∧ n ≤ 0x1f) ∨ (0x7f ≤ n ∧ n ≤ 0x9f) ∨
    (0xfdd0 ≤ n ∧ n ≤ 0xfdef) ∨ n % 0x10000 ≥ 0xfffe)

/-- The text for which a numeric reference stands. -/
def codePoint (n : Nat) : List Char :=
  if n = 0 then ['\ufffd']
  else if 0x80 ≤ n ∧ n ≤ 0x9f then [Char.ofNat (codePage.getD (n - 0x80) n)]
  else if (0xd800 ≤ n ∧ n ≤ 0xdfff) ∨ n > 0x10ffff then ['\ufffd']
  else if isInvalid n then []
  else [Char.ofNat n]

/-- A character that may stand in the name of a reference. -/
def isNameChar (c : Char) : Bool :=
  c ∉ ['\t', '\n', '\x0c', ' ', '<', '&', '#', ';']

/-- The longest name of a reference, without its semicolon. -/
def maxName : Nat := 32

/-- The text with the longest beginning of a name, of length at most `n` and at least two, replaced
by the characters it stands for. -/
def replaceBeginning (name : List Char) : Nat → List Char
  | 0 | 1 => '&' :: name
  | n + 2 =>
    match named? (name.take (n + 2)) with
    | some cs => cs ++ name.drop (n + 2)
    | none => replaceBeginning name (n + 1)

/-- The text for which the name of a reference stands, or its longest known beginning. -/
def nameText (name : List Char) : List Char :=
  match named? name with
  | some cs => cs
  | none => replaceBeginning name (name.length - 1)

/-- The text after a semicolon that may stand at the head. -/
def dropSemicolon : List Char → List Char
  | ';' :: s => s
  | s => s

/-- The text of one reference at the head of a text. -/
def reference? : Reader (Except TooLong (List Char))
  | '&' :: '#' :: s =>
    let ds := s.takeWhile Char.isDigit
    if !ds.isEmpty then
      some ((readDigits ds).map codePoint, dropSemicolon (s.dropWhile Char.isDigit))
    else match s with
      | x :: t =>
        let hs := t.takeWhile fun c => (hexValue? c).isSome
        if (x == 'x' || x == 'X') && !hs.isEmpty then
          some (.ok (codePoint (hexNumber hs)), dropSemicolon (t.drop hs.length))
        else none
      | [] => none
  | '&' :: s =>
    let name := (s.take maxName).takeWhile isNameChar
    if name.isEmpty then none
    else match s.drop name.length with
      | ';' :: rest => some (.ok (nameText (name ++ [';'])), rest)
      | rest => some (.ok (nameText name), rest)
  | _ => none

/-- The text of a piece: references replaced, other characters as they stand. -/
def pieceText : Piece (Except TooLong (List Char)) → Except TooLong (List Char)
  | .plain c => .ok [c]
  | .form text => text

/-- The text with its references replaced.  A decimal reference that is too long is refused. -/
def unescape (s : List Char) : Except TooLong (List Char) :=
  if s.contains '&' then ((pieces reference? s).mapM pieceText).map List.flatten else .ok s

/-- A character as it stands in the content of an element. -/
def escapeChar : Char → List Char
  | '&' => "&amp;".toList
  | '<' => "&lt;".toList
  | '>' => "&gt;".toList
  | c => [c]

/-- The text as it stands in the content of an element. -/
def escape (s : List Char) : List Char :=
  s.flatMap escapeChar

/-- A character as it stands in an attribute value between quotes of either kind. -/
def escapeQuotedChar : Char → List Char
  | '"' => "&quot;".toList
  | '\'' => "&#x27;".toList
  | c => escapeChar c

/-- The text as it stands in an attribute value between quotes of either kind. -/
def escapeQuoted (s : List Char) : List Char :=
  s.flatMap escapeQuotedChar

end StylesheetTrace.Entity
