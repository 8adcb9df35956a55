import StylesheetTrace.Decimal.Nearest

/-!
# JSON values

Objects keep the order of their fields.  Whole numbers are told apart from numbers with a fraction
or an exponent, and from the numbers that are not finite.
-/

namespace StylesheetTrace

/-- A JSON value.  A real number is its mantissa times a power of ten. -/
inductive Json where
  | null
  | bool (b : Bool)
  | int (n : Int)
  | real (mantissa : Int) (exponent : Int)
  | notFinite
  | str (s : String)
  | arr (items : List Json)
  | obj (fields : List (String × Json))
  deriving Repr, BEq, Inhabited

namespace Json

/-- The value of a field of an object. -/
def field? (j : Json) (name : String) : Option Json :=
  match j with
  | obj fields => fields.lookup name
  | _ => none

/-- A whole number from a count. -/
def nat (n : Nat) : Json := int n

/-- A text, or null. -/
def ofText? (s : Option String) : Json :=
  s.elim null str

/-- A count, or null. -/
def ofNat? (n : Option Nat) : Json :=
  n.elim null nat

/-- The fields with one of them set: in its place, if the name is known, or else at the end. -/
def setField (fields : List (String × Json)) (name : String) (value : Json) :
    List (String × Json) :=
  if fields.any fun f => f.1 == name then
    fields.map fun f => if f.1 == name then (name, value) else f
  else fields ++ [(name, value)]

/-- Names without repetition. -/
def allDistinct : List String → Bool
  | [] => true
  | n :: ns => !ns.contains n && allDistinct ns

mutual

/-- The texts in front of those in `found`: all those of a value, the names of its fields
included, in reverse. -/
def textsOnto (found : List String) : Json → List String
  | str s => s :: found
  | arr vs => itemTextsOnto found vs
  | obj fs => fieldTextsOnto found fs
  | _ => found

/-- The texts in front of those in `found`: all those of some values, in reverse. -/
def itemTextsOnto (found : List String) : List Json → List String
  | [] => found
  | v :: vs => itemTextsOnto (textsOnto found v) vs

/-- The texts in front of those in `found`: the name of a field and all those of its value, in
reverse. -/
def entryTextsOnto (found : List String) : String × Json → List String
  | (name, v) => textsOnto (name :: found) v

/-- The texts in front of those in `found`: all those of some fields, in reverse. -/
def fieldTextsOnto (found : List String) : List (String × Json) → List String
  | [] => found
  | f :: fs => fieldTextsOnto (entryTextsOnto found f) fs

end

/-- All texts of a value, the names of fields included, in their order. -/
def texts (j : Json) : List String := (textsOnto [] j).reverse

mutual

/-- All numbers of a value are finite in double precision. -/
def isFinite : Json → Bool
  | notFinite => false
  | real m e => (Decimal.nearest m e).isFinite
  | arr vs => areFinite vs
  | obj fs => areFiniteFields fs
  | _ => true

/-- All numbers of some values are finite. -/
def areFinite : List Json → Bool
  | [] => true
  | v :: vs => isFinite v && areFinite vs

/-- All numbers of a field are finite. -/
def isFiniteField : String × Json → Bool
  | (_, v) => isFinite v

/-- All numbers of some fields are finite. -/
def areFiniteFields : List (String × Json) → Bool
  | [] => true
  | f :: fs => isFiniteField f && areFiniteFields fs

end

/-- An object from its fields in the order of the text: of two fields of one name, the later gives
the value. -/
def ofFields (fields : List (String × Json)) : Json :=
  if allDistinct (fields.map Prod.fst) then obj fields
  else obj (fields.foldl (fun acc f => setField acc f.1 f.2) [])

end Json

end StylesheetTrace
