import StylesheetTrace.Yaml.Token.Block
import StylesheetTrace.Yaml.Token.Plain
import StylesheetTrace.Yaml.Token.Quoted

/-!
# The tokens of a text, one after another

Tokens are read no further than they are needed, since what stands behind a mistake of the grammar
is not looked at.  A token is known when no colon can make it the key of a mapping any more: a key
stands on one line with its colon, and at most 1024 characters before it.  Behind a known token one
more is read, to see whether a comment follows.
-/

namespace StylesheetTrace.Yaml

/-- A flow collection that is open. -/
inductive FlowKind where
  | sequence
  | mapping
  deriving Repr, DecidableEq

/-- A token that a colon would make the key of a mapping. -/
structure KeyCandidate where
  /-- Its number in the stream. -/
  number : Nat
  /-- A colon must follow. -/
  required : Bool
  /-- How many characters stand before it. -/
  index : Nat
  /-- The line on which it begins. -/
  line : Nat
  /-- The column on which it begins. -/
  column : Nat
  deriving Repr, DecidableEq

/-- The state of reading. -/
structure TokenStream where
  /-- The position in the text. -/
  cursor : Cursor
  /-- The tokens that were read and not taken yet. -/
  queue : List Token
  /-- How many tokens were taken. -/
  taken : Nat
  /-- The open flow collections, from the inside out. -/
  flow : List FlowKind
  /-- The column of the open block collection. -/
  indent : Int
  /-- The columns of those around it. -/
  outer : List Int
  /-- A key may begin here. -/
  keyAllowed : Bool
  /-- The candidates for keys, by their level of nesting. -/
  keys : List (Nat × KeyCandidate)
  /-- The version that the text declares. -/
  version : Option (Nat × Nat)
  /-- The end was reached. -/
  done : Bool
  deriving Repr, DecidableEq

namespace TokenStream

/-- The stream of a text. -/
def ofText (s : List Char) : TokenStream :=
  { cursor := .start s
    queue := [⟨.streamStart, 1, none⟩]
    taken := 0
    flow := []
    indent := -1
    outer := []
    keyAllowed := true
    keys := []
    version := none
    done := false }

/-- The text is written by the rules of YAML 1.1. -/
def old (s : TokenStream) : Bool := s.version == some (1, 1)

/-- The text is written by the rules of a later version than YAML 1.1. -/
def recent (s : TokenStream) : Bool :=
  s.version.all fun v => decide (1 < v.1 ∨ (v.1 = 1 ∧ 1 < v.2))

/-- A flow collection is open. -/
def inFlow (s : TokenStream) : Bool := !s.flow.isEmpty

/-- How many flow collections are open. -/
def level (s : TokenStream) : Nat := s.flow.length

/-- The stream with a token at its end. -/
def push (s : TokenStream) (kind : TokenKind) (line : Nat) : TokenStream :=
  { s with queue := s.queue ++ [⟨kind, line, none⟩] }

/-- The stream with a token of some characters that begins at the position. -/
def pushHere (s : TokenStream) (kind : TokenKind) (size : Nat) : TokenStream :=
  { s.push kind s.cursor.line with cursor := Cursor.skip size s.cursor }

/-- The stream with a token before the one of a given number. -/
def insertAt (s : TokenStream) (number : Nat) (t : Token) : TokenStream :=
  { s with queue := s.queue.insertIdx (number - s.taken) t }

/-! ## Candidates for keys -/

/-- How far a key may stand before its colon. -/
def maxKeySize : Nat := 1024

/-- No colon can follow the candidate any more. -/
def isStale (s : TokenStream) (k : KeyCandidate) : Bool :=
  k.line != s.cursor.line || decide (s.cursor.index - k.index > maxKeySize)

/-- The stream without stale candidates. -/
def dropStale (s : TokenStream) : Outcome TokenStream :=
  if s.keys.any fun k => k.2.required && s.isStale k.2 then s.cursor.fail .keyWithoutValue
  else .ok { s with keys := s.keys.filter fun k => !s.isStale k.2 }

/-- The stream without the candidate of the present level. -/
def dropKey (s : TokenStream) : Outcome TokenStream :=
  match s.keys.lookup s.level with
  | none => .ok s
  | some k =>
    if k.required then s.cursor.fail .keyWithoutValue
    else .ok { s with keys := s.keys.filter fun k => k.1 != s.level }

/-- The stream with the next token as a candidate, where a key may begin. -/
def saveKey (s : TokenStream) : Outcome TokenStream :=
  if !s.keyAllowed then .ok s
  else
    s.dropKey.map fun s =>
      let c := s.cursor
      let required := !s.inFlow && s.indent == c.column
      let key : KeyCandidate := ⟨s.taken + s.queue.length, required, c.index, c.line, c.column⟩
      { s with keys := (s.level, key) :: s.keys }

/-! ## Indentation -/

/-- Block collections that end where the indentation falls below them: how many there are, and the
columns that remain. -/
def unwound (column : Int) : Int → List Int → Nat × Int × List Int
  | indent, [] => (0, indent, [])
  | indent, next :: outer =>
    if indent > column then
      let (n, rest) := unwound column next outer
      (n + 1, rest)
    else (0, indent, next :: outer)

/-- Ends the block collections that stand to the right of a column. -/
def unwind (s : TokenStream) (column : Int) : TokenStream :=
  if s.inFlow then s
  else
    let (n, indent, outer) := unwound column s.indent s.outer
    { s with
      indent, outer
      queue := s.queue ++ List.replicate n ⟨.blockEnd, s.cursor.line, none⟩ }

/-- A block collection begins where it stands further to the right than the open one. -/
def opens (s : TokenStream) (column : Nat) : Bool := decide (s.indent < column)

/-- The stream with the column of a new block collection. -/
def indented (s : TokenStream) (column : Nat) : TokenStream :=
  { s with indent := column, outer := s.indent :: s.outer }

/-- A block collection begins at the position, unless it is open already. -/
def openHere (s : TokenStream) (kind : TokenKind) : TokenStream :=
  if s.opens s.cursor.column then (s.indented s.cursor.column).push kind s.cursor.line else s

/-! ## Reading one token -/

/-- The end of the text, which ends all block collections. -/
def fetchEnd (s : TokenStream) : Outcome TokenStream :=
  (s.unwind (-1)).dropKey.map fun s =>
    { s.push .streamEnd s.cursor.line with keyAllowed := false, keys := [], done := true }

/-- What stands between documents. -/
def fetchBetween (s : TokenStream) (read : TokenStream → Outcome TokenStream) :
    Outcome TokenStream :=
  (s.unwind (-1)).dropKey >>= fun s => read { s with keyAllowed := false }

/-- A directive. -/
def fetchDirective (s : TokenStream) : Outcome TokenStream :=
  s.fetchBetween fun s =>
    (directive (!s.recent) s.cursor).map fun (d, cursor) =>
      let version := match d with
        | .version major minor => some (major, minor)
        | _ => s.version
      { s.push (.directive d) s.cursor.line with cursor, version }

/-- The beginning of a flow collection. -/
def fetchFlowStart (s : TokenStream) (kind : FlowKind) (token : TokenKind) : Outcome TokenStream :=
  s.saveKey.map fun s =>
    { s.pushHere token 1 with flow := kind :: s.flow, keyAllowed := true }

/-- The end of a flow collection. -/
def fetchFlowEnd (s : TokenStream) (token : TokenKind) : Outcome TokenStream :=
  s.dropKey.map fun s => { s.pushHere token 1 with flow := s.flow.drop 1, keyAllowed := false }

/-- The comma of a flow collection. -/
def fetchFlowEntry (s : TokenStream) : Outcome TokenStream :=
  (dropKey { s with keyAllowed := true }).map fun s => s.pushHere .flowEntry 1

/-- A part of a block collection, which may only stand where a key may begin. -/
def fetchBlockPart (s : TokenStream) (part : Misplaced) (opening token : TokenKind)
    (keyAllowed : Bool) : Outcome TokenStream :=
  if !s.inFlow && !s.keyAllowed then s.cursor.fail (.misplaced part)
  else
    let s := if s.inFlow then s else s.openHere opening
    (dropKey { s with keyAllowed }).map fun s => s.pushHere token 1

/-- The hyphen of a block sequence. -/
def fetchBlockEntry (s : TokenStream) : Outcome TokenStream :=
  s.fetchBlockPart .sequenceEntry .blockSequenceStart .blockEntry true

/-- The question mark of a key. -/
def fetchKey (s : TokenStream) : Outcome TokenStream :=
  s.fetchBlockPart .mappingKey .blockMappingStart .key (!s.inFlow)

/-- The tokens that a colon puts before its key. -/
def markKey (s : TokenStream) (k : KeyCandidate) : TokenStream :=
  let s := { s with keys := s.keys.filter fun k => k.1 != s.level, keyAllowed := false }
  let s := s.insertAt k.number ⟨.key, k.line, none⟩
  if !s.inFlow && s.opens k.column then
    (s.indented k.column).insertAt k.number ⟨.blockMappingStart, k.line, none⟩
  else s

/-- A colon, behind a key or on its own. -/
def fetchValue (s : TokenStream) : Outcome TokenStream :=
  match s.keys.lookup s.level with
  | some k => .ok ((s.markKey k).pushHere .value 1)
  | none => s.fetchBlockPart .mappingValue .blockMappingStart .value (!s.inFlow)

/-- A token that may be or begin a key. -/
def fetchContent (s : TokenStream) (read : TokenStream → Outcome (TokenKind × Cursor)) :
    Outcome TokenStream :=
  s.saveKey >>= fun s =>
    (read s).map fun (kind, cursor) =>
      { s.push kind s.cursor.line with cursor, keyAllowed := false }

/-- A block scalar, behind which a key may begin. -/
def fetchBlockScalar (s : TokenStream) : Outcome TokenStream :=
  dropKey { s with keyAllowed := true } >>= fun s =>
    (blockScalar s.indent s.cursor).map fun b =>
      let t : Token := ⟨.scalar b.text b.style, s.cursor.line, b.comments⟩
      { s with queue := s.queue ++ [t], cursor := b.cursor }

/-- A plain scalar; a key may begin behind it if it ended a line. -/
def fetchPlain (s : TokenStream) : Outcome TokenStream :=
  s.saveKey.map fun s =>
    let (text, space) := plainScalar ⟨s.inFlow, s.old, s.indent + 1⟩ s.cursor
    let t : Token := ⟨.scalar text .plain, s.cursor.line, space.comments s.cursor⟩
    { s with queue := s.queue ++ [t], cursor := space.cursor, keyAllowed := space.ended }

/-- A quoted scalar. -/
def fetchQuoted (s : TokenStream) (style : Style) : Outcome TokenStream :=
  s.fetchContent fun s => (quotedScalar s.cursor).map fun (t, c) => (.scalar t style, c)

/-- A character that begins no plain scalar by itself. -/
def isIndicator (c : Char) : Bool :=
  isEnd c || " \t-?:,[]\x7b\x7d#&*!|>'\"%@\x60".toList.contains c

/-- A plain scalar begins at the position. -/
def startsPlain (s : TokenStream) : Bool :=
  let c := s.cursor.peek
  let next := s.cursor.peekAt 1
  !isIndicator c
    || (!isWordEnd next && (c == '-' || (!s.inFlow && (c == '?' || c == ':'))))
    || (!s.old && s.inFlow && c == ':' && next != ' ' && next != '\t')

/-- A colon at the position is the indicator of a value. -/
def startsValue (s : TokenStream) : Bool :=
  isWordEnd (s.cursor.peekAt 1) ||
    match s.flow with
    | [] => false
    | .sequence :: _ => s.old
    | .mapping :: _ => s.old || (s.queue.getLast?.map Token.kind) != some .value

/-- The token at the position, with those that it implies. -/
def fetchToken (s : TokenStream) : Outcome TokenStream :=
  let c := s.cursor
  let ends := isWordEnd (c.peekAt 1)
  match c.rest with
  | [] => s.fetchEnd
  | ch :: _ =>
    if ch == '%' && c.column == 0 then s.fetchDirective
    else if c.column == 0 && c.atTriple '-' then
      s.fetchBetween fun s => .ok (s.pushHere .documentStart 3)
    else if c.column == 0 && c.atTriple '.' then
      s.fetchBetween fun s => .ok (s.pushHere .documentEnd 3)
    else if ch == '[' then s.fetchFlowStart .sequence .flowSequenceStart
    else if ch == '\x7b' then s.fetchFlowStart .mapping .flowMappingStart
    else if ch == ']' then s.fetchFlowEnd .flowSequenceEnd
    else if ch == '\x7d' then s.fetchFlowEnd .flowMappingEnd
    else if ch == ',' then s.fetchFlowEntry
    else if ch == '-' && ends then s.fetchBlockEntry
    else if ch == '?' && (s.inFlow || ends) then s.fetchKey
    else if ch == ':' && s.startsValue then s.fetchValue
    else if ch == '*' then
      s.fetchContent fun s => (anchorName s.cursor).map fun (n, c) => (.aliasOf n, c)
    else if ch == '&' then
      s.fetchContent fun s => (anchorName s.cursor).map fun (n, c) => (.anchor n, c)
    else if ch == '!' then
      s.fetchContent fun s => (tagText (!s.recent) s.cursor).map fun (t, c) => (.tag t, c)
    else if (ch == '|' || ch == '>') && !s.inFlow then s.fetchBlockScalar
    else if ch == '\'' then s.fetchQuoted .single
    else if ch == '"' then s.fetchQuoted .double
    else if s.startsPlain then s.fetchPlain
    else c.fail (.cannotStart ch)

/-- Reads on: passes over blanks, and reads a comment or a token. -/
def fetch (s : TokenStream) : Outcome TokenStream :=
  let gap := Gap.read s.inFlow s.cursor
  let s := { s with cursor := gap.cursor, keyAllowed := s.keyAllowed || (gap.ended && !s.inFlow) }
  match gap.comment with
  | some c =>
    let c := { c with text := Text.dropEndWhile (· == ' ') c.text }
    .ok (s.push (.comment c) c.line)
  | none => s.dropStale >>= fun s => (s.unwind s.cursor.column).fetchToken

/-! ## Taking tokens -/

/-- Whether more has to be read before the first token is known; stale candidates are dropped. -/
def needsMore (s : TokenStream) : Outcome (Bool × TokenStream) :=
  if s.done then .ok (false, s)
  else if s.queue.isEmpty then .ok (true, s)
  else s.dropStale.map fun s => ((s.keys.map fun k => k.2.number).min? == some s.taken, s)

/-- The stream without its first token. -/
def drop (s : TokenStream) : TokenStream :=
  { s with queue := s.queue.drop 1, taken := s.taken + 1 }

/-- The stream without its first token, if that is a comment, which is put in front of those passed
over so far. -/
def dropComment (s : TokenStream) (passed : List Comment) : List Comment × TokenStream :=
  match s.queue.head?.bind Token.comment? with
  | some c => (c :: passed, s.drop)
  | none => (passed, s)

/-- Reads until the first token is known.  Every turn takes a character or reaches the end, so that
a bound of the text's length suffices.  -/
def fill : Nat → TokenStream → Outcome TokenStream
  | 0, s => .ok s
  | n + 1, s =>
    match s.needsMore with
    | .error e => .error e
    | .ok (false, s) => .ok s
    | .ok (true, s) =>
      match s.fetch with
      | .error e => .error e
      | .ok s => fill n s

/-- Reads until the first token is known, and passes over the comments before it.  Those passed over
so far are in reverse. -/
def fillPast : Nat → TokenStream → List Comment → Outcome (List Comment × TokenStream)
  | 0, s, passed => .ok (passed, s)
  | n + 1, s, passed =>
    match s.needsMore with
    | .error e => .error e
    | .ok (false, s) => .ok (passed, s)
    | .ok (true, s) =>
      match s.fetch with
      | .error e => .error e
      | .ok s =>
        let (passed, s) := s.dropComment passed
        fillPast n s passed

/-- The stream with the comments of the first token changed. -/
def withComments (s : TokenStream) (change : Option Comments → Except Breakdown Comments) :
    Outcome TokenStream :=
  match s.queue with
  | [] => .ok s
  | t :: rest =>
    Outcome.ofBreakdown
      ((change t.comments).map fun c => { s with queue := { t with comments := some c } :: rest })

/-- The stream with its first token known, which has the comments before it, and with one more token
read. -/
def ready (s : TokenStream) : Outcome TokenStream := do
  let s ← fill s.cursor.turns s
  let (passed, s) := s.dropComment []
  let (passed, s) ← fillPast s.cursor.turns s passed
  let s ← if passed.isEmpty then pure s
    else s.withComments fun c => Comments.withBefore c (passed.reverse.map .comment)
  if !s.done && s.queue.length < 2 then s.fetch else pure s

/-- The first token. -/
def first (s : TokenStream) : Token :=
  s.queue.headD ⟨.streamEnd, s.cursor.line, none⟩

/-- The first token, which stays in the stream. -/
def peek (s : TokenStream) : Outcome (Token × TokenStream) :=
  s.ready.map fun s => (s.first, s)

/-- The comments behind the first token are passed over, and the token after them is read.  Those
passed over so far are in reverse. -/
def dropFollowing : Nat → TokenStream → List Comment → Outcome (List Comment × TokenStream)
  | 0, s, passed => .ok (passed.reverse, s)
  | n + 1, s, passed =>
    match s.queue with
    | t :: u :: rest =>
      match u.comment? with
      | none => .ok (passed.reverse, s)
      | some c =>
        match fetch { s with queue := t :: rest, taken := s.taken + 1 } with
        | .error e => .error e
        | .ok s => dropFollowing n s (c :: passed)
    | _ => .ok (passed.reverse, s)

/-- The first token takes the comments behind it that belong to it. -/
def takeComments (s : TokenStream) : Outcome TokenStream :=
  match s.queue with
  | t :: u :: _ =>
    if u.comment?.any t.takes then
      dropFollowing s.cursor.turns s [] >>= fun (passed, s) =>
        match passed with
        | [] => .ok s
        | c :: further => s.withComments fun cs => .ok (Comments.withBehind cs (c.join further))
    else .ok s
  | _ => .ok s

/-- Takes the first token, with the comments that belong to it. -/
def next (s : TokenStream) : Outcome (Token × TokenStream) :=
  (s.ready >>= takeComments).map fun s => (s.first, s.drop)

/-- The tokens that are left, with those taken so far in reverse, up to the end or to a mistake. -/
def drain : Nat → TokenStream → List Token → List Token × Option Refusal
  | 0, _, found => (found.reverse, none)
  | n + 1, s, found =>
    match s.next with
    | .error e => (found.reverse, some e)
    | .ok (t, s) =>
      if t.kind == .streamEnd then ((t :: found).reverse, none) else drain n s (t :: found)

end TokenStream

/-- The tokens of a text, and why it is refused, if it is. -/
def tokens (s : List Char) : List Token × Option Refusal :=
  TokenStream.drain (4 * s.length + 8) (.ofText s) []

end StylesheetTrace.Yaml
