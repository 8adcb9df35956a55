/-!
# Checked values

Data from outside is checked field by field.  A check that fails reports every fault it finds, in
the order in which the fields are declared, and each fault says where in the data it was found.
-/

namespace StylesheetTrace.Validation

/-- What is wrong with a value. -/
inductive FaultKind where
  | missing
  | stringType
  | stringTooShort
  | pathType
  | intType
  | intParsing
  | intParsingSize
  | intFromFloat
  | finiteNumber
  | greaterThanEqual
  | enum
  | boolType
  | boolParsing
  | dictType
  | listType
  | modelType
  | modelAttributesType
  | jsonInvalid
  deriving Repr, DecidableEq

/-- The name of the fault in answers. -/
def FaultKind.name : FaultKind → String
  | missing => "missing"
  | stringType => "string_type"
  | stringTooShort => "string_too_short"
  | pathType => "path_type"
  | intType => "int_type"
  | intParsing => "int_parsing"
  | intParsingSize => "int_parsing_size"
  | intFromFloat => "int_from_float"
  | finiteNumber => "finite_number"
  | greaterThanEqual => "greater_than_equal"
  | enum => "enum"
  | boolType => "bool_type"
  | boolParsing => "bool_parsing"
  | dictType => "dict_type"
  | listType => "list_type"
  | modelType => "model_type"
  | modelAttributesType => "model_attributes_type"
  | jsonInvalid => "json_invalid"

/-- A step on the way to a value: into a field, or to an item or a position. -/
inductive Place where
  | field (name : String)
  | item (index : Nat)
  deriving Repr, DecidableEq

/-- A fault of a value. -/
structure Fault where
  /-- What is wrong. -/
  kind : FaultKind
  /-- The place of the value, from the outside in. -/
  place : List Place
  deriving Repr, DecidableEq

/-- A value that passed its check, or the faults that were found. -/
inductive Checked (α : Type) where
  | valid (a : α)
  | faulty (faults : List Fault)
  deriving Repr, DecidableEq

namespace Checked

/-- The faults of a check. -/
def faults {α : Type} : Checked α → List Fault
  | valid _ => []
  | faulty fs => fs

/-- The check failed with one fault at the value itself. -/
def fail {α : Type} (kind : FaultKind) : Checked α :=
  faulty [⟨kind, []⟩]

/-- The value with a function applied to it. -/
def map {α β : Type} (f : α → β) : Checked α → Checked β
  | valid a => valid (f a)
  | faulty fs => faulty fs

/-- Goes on with a further check of a value that passed. -/
def andThen {α β : Type} (a : Checked α) (f : α → Checked β) : Checked β :=
  match a with
  | valid a => f a
  | faulty fs => faulty fs

/-- Both checks: the faults of the first come before those of the second. -/
def seq {α β : Type} (f : Checked (α → β)) (a : Checked α) : Checked β :=
  match f, a with
  | valid f, valid a => valid (f a)
  | f, a => faulty (f.faults ++ a.faults)

instance : Functor Checked where
  map := Checked.map

instance : Applicative Checked where
  pure := valid
  seq f a := Checked.seq f (a ())

/-- The check, of a value one step further in. -/
def within {α : Type} (p : Place) : Checked α → Checked α
  | valid a => valid a
  | faulty fs => faulty (fs.map fun f => { f with place := p :: f.place })

/-- All the checks, their values in order. -/
def all {α : Type} (cs : List (Checked α)) : Checked (List α) :=
  (cs.foldl (fun acc c => seq (acc.map fun vs v => v :: vs) c) (valid [])).map List.reverse

end Checked

end StylesheetTrace.Validation
