import StylesheetTrace.Service.Request
import StylesheetTrace.Service.Response
import StylesheetTrace.Text.Numeral

/-!
# The size of bodies

A body is refused when the size that its request declares, or the size that it turns out to have, is
above the limit of the path.  The reading of a body stops at the chunk that goes beyond the limit.
-/

namespace StylesheetTrace.Service

open StylesheetTrace.Text

/-- How many bytes a megabyte has. -/
def megabyte : Nat := 1024 * 1024

/-- The ends of the paths that take whole documents. -/
def documentPaths : List String := ["/runs", "/instrument", "/resolve"]

/-- A character that does not count in a path: it ends a line or is a tabulator. -/
def isPassedOver (c : Char) : Bool := c == '\t' || c == '\n' || c == '\r'

/-- The limit in megabytes for the body of a request to a path.  The path is the one of an address that
is put together from the decoded path, in which question marks and number signs are escaped again: they
do not end it. -/
def limitOf (path : List Char) : Nat :=
  let shown := path.filter fun c => !isPassedOver c
  if documentPaths.any fun e => e.toList.isSuffixOf shown then 25 else 1

/-- The size that a header declares.  A size below zero is none. -/
def declaredSize? (value : String) : Option Nat :=
  match readWhole 10 value.toList with
  | .ok n => if n < 0 then none else some n.toNat
  | .error _ => none

/-- Why the body of a request is not taken. -/
inductive BodyRefusal where
  | badSize
  | tooLarge (megabytes : Nat)
  deriving Repr, DecidableEq

/-- The response to a request whose body is not taken. -/
def BodyRefusal.response : BodyRefusal → Response
  | badSize => .detail 400 "Invalid Content-Length header"
  | tooLarge limit => .detail 413 s!"Request body too large (max {limit} MB)"

/-- The bytes read so far and those of the chunks, unless together they are more than `limit`. -/
def gather (limit : Nat) : ByteArray → List ByteArray → Option ByteArray
  | found, [] => some found
  | found, c :: cs => if found.size + c.size > limit then none else gather limit (found ++ c) cs

/-- The check of the size that a request declares. -/
def checkDeclared (megabytes : Nat) (r : Request) : Except BodyRefusal Unit :=
  match r.header? "content-length" with
  | none => .ok ()
  | some value =>
    match declaredSize? value with
    | none => .error .badSize
    | some n => if n > megabytes * megabyte then .error (.tooLarge megabytes) else .ok ()

/-- The body of a request, if it is taken; a request of a method without body has an empty one. -/
def takeBody (r : Request) : Except BodyRefusal ByteArray := do
  let megabytes := limitOf r.path
  checkDeclared megabytes r
  if r.hasBody then
    match gather (megabytes * megabyte) .empty r.chunks with
    | some bytes => pure bytes
    | none => throw (.tooLarge megabytes)
  else pure .empty

end StylesheetTrace.Service
