import StylesheetTrace.Yaml.Breakdown

/-!
# Comments

Comments mean nothing, but they are kept with the tokens beside which they stand, and they move on
when a token is done with.  A token has room for one comment behind it and for a row of comments
before it; where two would fall on the same place, reading breaks off.
-/

namespace StylesheetTrace.Yaml

open StylesheetTrace.Text

/-- A comment or a row of empty lines. -/
structure Comment where
  /-- Its text. -/
  text : List Char
  /-- The line on which it begins, counted from 1. -/
  line : Nat
  /-- The column on which it begins, counted from 0. -/
  column : Nat
  deriving Repr, DecidableEq

namespace Comment

/-- The comment as messages show it, with its line counted from 0. -/
def shown (c : Comment) : String :=
  s!"CommentToken({quoted (String.ofList c.text)}, line: {c.line - 1}, col: {c.column})"

/-- A comment with those that follow it, each behind as many blanks as its column says. -/
def join (c : Comment) (further : List Comment) : Comment :=
  { c with text := c.text ++ further.flatMap fun d => List.replicate d.column ' ' ++ d.text }

end Comment

/-- What may stand before a token: a comment, or the remark in the head of a block scalar. -/
inductive Remark where
  | comment (c : Comment)
  | head (text : List Char)
  deriving Repr, DecidableEq

/-- The remark as messages show it. -/
def Remark.shown : Remark → String
  | comment c => c.shown
  | head text => quoted (String.ofList text)

/-- The comments of a token. -/
structure Comments where
  /-- The comment behind it. -/
  behind : Option Comment
  /-- What stands before it. -/
  before : Option (List Remark)
  /-- The comment behind a colon that was kept for the value if that should be left out. -/
  spare : Option (Option Comment)
  deriving Repr, DecidableEq

namespace Comments

/-- The comments as messages show them. -/
def shown (c : Comments) : String :=
  let one (c : Option Comment) : String := c.elim "None" Comment.shown
  let row (rs : List Remark) : String := "[" ++ ", ".intercalate (rs.map Remark.shown) ++ "]"
  let spare := c.spare.elim [] fun s => ["None", "None", one s]
  "[" ++ ", ".intercalate (one c.behind :: c.before.elim "None" row :: spare) ++ "]"

/-- The comments of a token with one behind it. -/
def withBehind (c : Option Comments) (behind : Comment) : Comments :=
  { c.getD ⟨none, none, none⟩ with behind := some behind }

/-- The comments of a token with those before it, which may be given only once. -/
def withBefore (c : Option Comments) (before : List Remark) : Except Breakdown Comments :=
  match c with
  | none => .ok ⟨none, some before, none⟩
  | some c =>
    if c.before.isSome || c.spare.isSome then .error .repeatedPart
    else .ok { c with before := some before }

/-- The comments of a token that get those of another one; `spare` asks to keep a comment for a
value that is left out.  -/
def taking (c : Option Comments) (moved : Comments) (spare : Bool) : Except Breakdown Comments :=
  match c with
  | none => .ok (if spare then { moved with spare := some moved.behind } else moved)
  | some c =>
    if (moved.behind.isSome && c.behind.isSome) || (moved.before.isSome && c.before.isSome) then
      .error (.overlap moved.shown c.shown)
    else .ok { c with behind := moved.behind.or c.behind, before := moved.before.or c.before }

end Comments

end StylesheetTrace.Yaml
