import StylesheetTrace.Text.Hex
import StylesheetTrace.Text.Printable
import StylesheetTrace.Text.Surrogate

/-!
# Quoted texts

A text is quoted by apostrophes, or by double quotes when it holds apostrophes and no double quote.
The quote, the backslash, line ends, tabs and every character without a glyph are escaped.
-/

namespace StylesheetTrace.Text

/-- The escape of a character without a glyph, by its code point or by the half of a surrogate pair
for which it stands in. -/
def codePointEscape (c : Char) : List Char :=
  let n := (halfPair? c).getD c.toNat
  if n < 0x100 then '\\' :: 'x' :: hexDigits 2 n
  else if n < 0x10000 then '\\' :: 'u' :: hexDigits 4 n
  else '\\' :: 'U' :: hexDigits 8 n

/-- A character as it stands between quotes of the kind `quote`. -/
def quotedChar (quote c : Char) : List Char :=
  if c == quote || c == '\\' then ['\\', c]
  else if c == '\n' then ['\\', 'n']
  else if c == '\r' then ['\\', 'r']
  else if c == '\t' then ['\\', 't']
  else if isPrintable c then [c]
  else codePointEscape c

/-- The quote for a text: double quotes only for a text with apostrophes and without any. -/
def quoteFor (s : List Char) : Char :=
  if s.contains '\'' && !s.contains '"' then '"' else '\''

/-- The text in quotes. -/
def quoted (s : String) : String :=
  let cs := s.toList
  let q := quoteFor cs
  String.ofList (q :: cs.flatMap (quotedChar q) ++ [q])

end StylesheetTrace.Text
