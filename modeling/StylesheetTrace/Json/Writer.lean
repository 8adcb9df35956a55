import StylesheetTrace.Decimal.Nearest
import StylesheetTrace.Decimal.Shortest
import StylesheetTrace.Json.Basic
import StylesheetTrace.Text.Quoted
import StylesheetTrace.Text.Surrogate

/-!
# Writing JSON

A value is written either without blanks or with every item and field on a line of its own.  Texts
are written in ASCII, unless the other characters are wanted as they stand.  A real number is
written as the one of double precision that is nearest to it.
-/

namespace StylesheetTrace.Json

open StylesheetTrace.Text

/-- The escape of a code unit of sixteen bits. -/
def unitEscape (n : Nat) : List Char :=
  '\\' :: 'u' :: hexDigits 4 n

/-- A character inside a string. -/
def stringChar (ascii : Bool) (c : Char) : List Char :=
  if c == '"' then ['\\', '"']
  else if c == '\\' then ['\\', '\\']
  else if c == '\n' then ['\\', 'n']
  else if c == '\r' then ['\\', 'r']
  else if c == '\t' then ['\\', 't']
  else if c == '\x0c' then ['\\', 'f']
  else if c == '\x08' then ['\\', 'b']
  else if c.toNat < 0x20 then unitEscape c.toNat
  else if c.toNat < 0x7f || !ascii then [c]
  else if let some half := halfPair? c then unitEscape half
  else if c.toNat < 0x10000 then unitEscape c.toNat
  else
    let n := c.toNat - 0x10000
    unitEscape (0xd800 + n / 0x400) ++ unitEscape (0xdc00 + n % 0x400)

/-- A string in its quotes. -/
def stringText (ascii : Bool) (s : String) : String :=
  String.ofList ('"' :: s.toList.flatMap (stringChar ascii) ++ ['"'])

/-- How values are laid out. -/
structure Layout where
  /-- Characters outside ASCII are written as escapes. -/
  ascii : Bool
  /-- With how many blanks a level is indented; without a number all stands on one line. -/
  indent : Option Nat
  deriving Repr, DecidableEq

namespace Layout

/-- The line end and the indentation before an item at a level, where items have their own lines. -/
def newLine (l : Layout) (level : Nat) : String :=
  match l.indent with
  | none => ""
  | some width => "\n" ++ String.ofList (List.replicate (width * level) ' ')

/-- What stands between the name of a field and its value. -/
def colon (l : Layout) : String :=
  if l.indent.isSome then ": " else ":"

end Layout

mutual

/-- The text `out` followed by a value at a level of nesting. -/
def write (l : Layout) (level : Nat) (out : String) : Json → String
  | null => out ++ "null"
  | bool b => out ++ if b then "true" else "false"
  | int n => out ++ toString n
  | real m e => out ++ Decimal.text (Decimal.nearest m e)
  | notFinite => out ++ "NaN"
  | str s => out ++ stringText l.ascii s
  | arr [] => out ++ "[]"
  | arr (v :: vs) =>
    writeItems l (level + 1) (write l (level + 1) (out ++ "[" ++ l.newLine (level + 1)) v) vs ++
      l.newLine level ++ "]"
  | obj [] => out ++ "\x7b\x7d"
  | obj (f :: fs) =>
    writeFields l (level + 1) (writeField l (level + 1) (out ++ "\x7b" ++ l.newLine (level + 1)) f)
      fs ++ l.newLine level ++ "\x7d"

/-- The text `out` followed by further items of an array. -/
def writeItems (l : Layout) (level : Nat) (out : String) : List Json → String
  | [] => out
  | v :: vs => writeItems l level (write l level (out ++ "," ++ l.newLine level) v) vs

/-- The text `out` followed by a field. -/
def writeField (l : Layout) (level : Nat) (out : String) : String × Json → String
  | (name, v) => write l level (out ++ stringText l.ascii name ++ l.colon) v

/-- The text `out` followed by further fields of an object. -/
def writeFields (l : Layout) (level : Nat) (out : String) : List (String × Json) → String
  | [] => out
  | f :: fs => writeFields l level (writeField l level (out ++ "," ++ l.newLine level) f) fs

end

/-- The value without blanks, in ASCII. -/
def compact (j : Json) : String :=
  write ⟨true, none⟩ 0 "" j

/-- The value without blanks, with all characters as they stand. -/
def compactText (j : Json) : String :=
  write ⟨false, none⟩ 0 "" j

/-- The value with every item and field on a line of its own, two blanks a level, in ASCII. -/
def pretty (j : Json) : String :=
  write ⟨true, some 2⟩ 0 "" j

end StylesheetTrace.Json
