/-!
# Tables of rule targets

Rules that are checked at the root of a document say nothing about the place of a finding.  A table
gives, for such a rule, the elements that it is about, the most specific first.  The order of a
table is the order in which its rules were first given.
-/

namespace StylesheetTrace

/-- The element names that each rule is about. -/
structure RuleTable where
  /-- The rules, each an identifier with its names. -/
  rules : List (String × List String)
  deriving Repr, DecidableEq

namespace RuleTable

/-- The table without rules. -/
def empty : RuleTable := ⟨[]⟩

/-- The names given for a rule. -/
def get? (t : RuleTable) (id : String) : Option (List String) :=
  t.rules.lookup id

/-- The names for a rule: none without an identifier or for an unknown rule. -/
def targets (t : RuleTable) (ruleId : Option String) : List String :=
  match ruleId with
  | none => []
  | some id => if id.isEmpty then [] else (t.get? id).getD []

/-- The table with names for one rule, in place of those that it has or as a new rule at the end. -/
def insert (t : RuleTable) (id : String) (names : List String) : RuleTable :=
  if t.rules.any fun r => r.1 == id then
    ⟨t.rules.map fun r => if r.1 == id then (id, names) else r⟩
  else ⟨t.rules ++ [(id, names)]⟩

/-- The table with further rules, each given new names in turn. -/
def merge (t : RuleTable) (overrides : List (String × List String)) : RuleTable :=
  overrides.foldl (fun t (id, names) => t.insert id names) t

/-- The table of the given rules: of two with one identifier, the later gives the names. -/
def ofList (rules : List (String × List String)) : RuleTable :=
  empty.merge rules

end RuleTable

end StylesheetTrace
