import StylesheetTrace.Markup.Tag
import StylesheetTrace.Text.Word

/-!
# Instructions of a stylesheet

The instructions of a stylesheet are the elements of the XSLT namespace.  Its prefix is the one that
the text first binds to the namespace, and `xsl` when it binds none.
-/

namespace StylesheetTrace.Stylesheet

open StylesheetTrace.Text StylesheetTrace.Markup

/-- The namespace of the instructions. -/
def namespaceName : String := "http://www.w3.org/1999/XSL/Transform"

/-- The text after a quote of either kind. -/
def afterQuote? : List Char → Option (List Char)
  | '"' :: s => some s
  | '\'' :: s => some s
  | _ => none

/-- A binding of a prefix to the namespace of the instructions. -/
def binding? : Reader (List Char) := fun s => do
  let s ← after? "xmlns:".toList s
  let (bound, s) ← name? s
  let s ← after? ['='] (s.dropWhile isBlank)
  let s ← afterQuote? (s.dropWhile isBlank)
  let s ← after? namespaceName.toList s
  let s ← afterQuote? s
  some (bound, s)

/-- The prefix of the instructions of a stylesheet. -/
def instructionPrefix (content : List Char) : List Char :=
  (firstForm? binding? content).getD "xsl".toList

/-- The text after the name of an instruction called one of `names`, read behind the `<` or `</` of
its tag. -/
def afterInstruction? (xsl : List Char) (names : List String) (s : List Char) :
    Option (List Char) :=
  (after? (xsl ++ [':']) s).bind fun rest => names.findSome? fun n => after? n.toList rest

/-- The beginning of a tag that opens one of the instructions `names`. -/
def instructionOpening? (xsl : List Char) (names : List String) : Reader Unit
  | '<' :: s =>
    (afterInstruction? xsl names s).bind fun r => if endsWord r then some ((), r) else none
  | _ => none

/-- A tag that opens one of the instructions `names`; `closed` tells whether it closes it at once.
-/
def instructionTag? (xsl : List Char) (names : List String) (closed : Bool) : Reader Unit :=
  fun s => do
    let (_, r) ← instructionOpening? xsl names s
    let (inside, rest) ← tagInside? r
    if endsWithSlash inside == closed then some ((), rest) else none

/-- An end tag of one of the instructions `names`. -/
def instructionClosing? (xsl : List Char) (names : List String) : Reader Unit
  | '<' :: '/' :: s => do
    let r ← afterInstruction? xsl names s
    let rest ← afterEnd? r
    some ((), rest)
  | _ => none

end StylesheetTrace.Stylesheet
