/-!
# Letters regardless of case

Two letters agree regardless of case when their simple case forms do.  Four letters outside ASCII
agree with an ASCII letter: the long s, the two Turkish i's and the Kelvin sign.
-/

namespace StylesheetTrace.Text

/-- The lower-case ASCII letter with which the character agrees regardless of case, or else the
character itself. -/
def foldCase (c : Char) : Char :=
  if c.toNat < 128 then c.toLower
  else if c.toNat = 0x130 ∨ c.toNat = 0x131 then 'i'
  else if c.toNat = 0x17f then 's'
  else if c.toNat = 0x212a then 'k'
  else c

/-- An ASCII letter, or a character that agrees with one regardless of case. -/
def isCaselessLetter (c : Char) : Bool :=
  (foldCase c).isAlpha

/-- An ASCII letter or digit, or a character that agrees with a letter regardless of case. -/
def isCaselessAlphanum (c : Char) : Bool :=
  (foldCase c).isAlphanum

/-- The text after the word `w`, which is given in lower case and matched regardless of case. -/
def afterCaseless? : List Char → List Char → Option (List Char)
  | [], s => some s
  | _ :: _, [] => none
  | w :: ws, c :: s => if foldCase c == w then afterCaseless? ws s else none

end StylesheetTrace.Text
