import StylesheetTrace.Text.Percent

/-!
# Requests

A request addresses a resource of the service by its target, a path and a query.  Its body arrives
in chunks.
-/

namespace StylesheetTrace.Service

open StylesheetTrace.Text

/-- A request to the service. -/
structure Request where
  /-- The method, as it is sent. -/
  method : String
  /-- The path and the query, not decoded yet. -/
  target : String
  /-- The names of the headers with their values, in their order. -/
  headers : List (String × String)
  /-- The chunks in which the body arrives. -/
  chunks : List ByteArray

namespace Request

/-- The path of the target, decoded. -/
def path (r : Request) : List Char :=
  Percent.decode (r.target.toList.takeWhile fun c => c != '?' && c != '#')

/-- The fields of the query, decoded. -/
def query (r : Request) : List (String × String) :=
  Percent.query (((r.target.toList.takeWhile (· != '#')).dropWhile (· != '?')).drop 1)

/-- The last value of a field of the query. -/
def queryValue? (r : Request) (name : String) : Option String :=
  r.query.reverse.lookup name

/-- A name in small letters. -/
def lower (s : String) : String := String.ofList (s.toList.map Char.toLower)

/-- The value of a header, whose name is known in any case. -/
def header? (r : Request) (name : String) : Option String :=
  (r.headers.find? fun h => lower h.1 == name).map Prod.snd

/-- The request has a body that is read. -/
def hasBody (r : Request) : Bool := ["POST", "PUT", "PATCH"].contains r.method

end Request

end StylesheetTrace.Service
