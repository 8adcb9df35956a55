import StylesheetTrace.Yaml.Event
import StylesheetTrace.Yaml.TokenStream

/-!
# The events of a text, one after another

The grammar of YAML is a machine that is in one state and keeps a stack of the states to go on with.
Each step looks at the next token, takes some tokens and yields one event.  A node that is left out
is a plain scalar without text.
-/

namespace StylesheetTrace.Yaml

/-- What may come next. -/
inductive Expecting where
  | stream
  | implicitDocument
  | document
  | documentContent
  | documentEnd
  | blockNode
  | sequenceStart
  | sequenceEntry
  | indentlessEntry
  | mappingStart
  | mappingKey
  | mappingValue
  | flowSequenceStart
  | flowSequenceEntry
  | flowSequenceNext
  | pairKey
  | pairValue
  | pairEnd
  | flowMappingStart
  | flowMappingKey
  | flowMappingNext
  | flowMappingValue
  | flowMappingEmptyValue
  deriving Repr, DecidableEq

/-- The state of the machine. -/
structure EventStream where
  /-- The tokens that are left. -/
  tokens : TokenStream
  /-- What comes next. -/
  state : Expecting
  /-- What comes afterwards. -/
  afterwards : List Expecting
  /-- What the handles of tags stand for. -/
  handles : List (String × String)
  deriving Repr, DecidableEq

namespace EventStream

/-- What the handles of tags stand for where no directive says it. -/
def defaultHandles : List (String × String) :=
  [("!", "!"), ("!!", "tag:yaml.org,2002:")]

/-- The stream of a text. -/
def ofText (s : List Char) : EventStream := ⟨.ofText s, .stream, [], defaultHandles⟩

/-- A step of the machine. -/
abbrev Step (α : Type) := StateT EventStream Outcome α

/-- The next token, which stays, looked at once. -/
def glance : Step Token := do
  let s ← get
  let (t, tokens) ← s.tokens.peek
  set { s with tokens }
  pure t

/-- The next token, which stays.  It is told from the others by a second look, at which a key that
has no colon can turn out to be too old. -/
def peek : Step Token := do
  let _ ← glance
  glance

/-- Takes the next token. -/
def take : Step Token := do
  let s ← get
  let (t, tokens) ← s.tokens.next
  set { s with tokens }
  pure t

/-- Changes the comments of the next token. -/
def annotate (change : Option Comments → Except Breakdown Comments) : Step Unit := do
  let s ← get
  let tokens ← s.tokens.withComments change
  set { s with tokens }

/-- Moves the comments of a token that was taken to the next one, but not beyond the last token of a
document; `spare` asks to keep one for a value that is left out.  The comments that stay behind are
given. -/
def moveComments (t : Token) (spare : Bool) : Step (Option Comments) := do
  let target ← glance
  match t.comments, target.kind with
  | none, _ => pure none
  | some c, .streamEnd | some c, .documentStart => pure (some c)
  | some c, _ =>
    annotate fun cs => Comments.taking cs c spare
    pure none

/-- Takes the next token and moves its comments on. -/
def takeMoving : Step Token := do
  let t ← take
  let _ ← moveComments t false
  pure t

/-- The text is refused on a line. -/
def refuse {α : Type} (problem : Problem) (line : Nat) : Step α :=
  throw (.fault problem line)

/-- Goes on in a state. -/
def goTo (e : Expecting) : Step Unit :=
  modify fun s => { s with state := e }

/-- Goes on in a state after the present node. -/
def goToAfterwards (e : Expecting) : Step Unit :=
  modify fun s => { s with afterwards := e :: s.afterwards }

/-- Goes on where the present node left off. -/
def goBack : Step Unit :=
  modify fun s =>
    { s with state := s.afterwards.headD .document, afterwards := s.afterwards.drop 1 }

/-- A node that is left out. -/
def empty (line : Nat) : Event := ⟨.scalar .none [] .plain, line⟩

/-! ## Nodes -/

/-- Takes a tag that begins a node.  Its comments move on, where there is room for them. -/
def takeFirstTag : Step Token := do
  let t ← take
  let s ← get
  match (moveComments t false).run s with
  | .ok (_, s) => set s
  | .error (.broken (.overlap _ _)) => let _ ← glance
  | .error e => throw e
  pure t

/-- An anchor and a tag in either order, with the line of the first one and with that of the anchor
if it is the second one, or else of the tag. -/
def rawProperties : Step (Option String × Option TagText × Option (Nat × Nat)) := do
  match ← peek with
  | ⟨.anchor name, line, _⟩ =>
    let _ ← takeMoving
    match ← peek with
    | ⟨.tag t, tagLine, _⟩ =>
      let _ ← take
      pure (some name, some t, some (line, tagLine))
    | _ => pure (some name, none, some (line, line))
  | ⟨.tag t, line, _⟩ =>
    let _ ← takeFirstTag
    match ← peek with
    | ⟨.anchor name, line, _⟩ =>
      let _ ← take
      pure (some name, some t, some (line, line))
    | _ => pure (none, some t, some (line, line))
  | _ => pure (none, none, none)

/-- A tag in full; `line` is where an unknown handle is reported. -/
def fullTag (t : TagText) (line : Nat) : Step TagName := do
  let suffix := String.ofList (percentDecoded t.suffix.toList)
  match t.handle with
  | none => pure ⟨suffix, false⟩
  | some handle =>
    match (← get).handles.lookup handle with
    | some start => pure ⟨start ++ suffix, true⟩
    | none => refuse (.unknownHandle handle) line

/-- What is said of a node, with the line of the first property. -/
def properties : Step (Properties × Option Nat) := do
  let (anchor, tag, lines) ← rawProperties
  let (line, tagLine) := lines.getD (0, 0)
  match tag with
  | none => pure (⟨anchor, none⟩, lines.map fun _ => line)
  | some t => pure (⟨anchor, some (← fullTag t tagLine)⟩, some line)

/-- The beginning of a node: block collections may stand here if `block`, and a sequence without
indentation if `indentless`. -/
def node (block indentless : Bool) : Step Event := do
  match ← peek with
  | ⟨.aliasOf name, line, _⟩ =>
    let _ ← take
    goBack
    pure ⟨.aliasOf name, line⟩
  | _ =>
    let (p, first?) ← properties
    let t ← peek
    let line := first?.getD t.line
    let begin (kind : EventKind) (next : Expecting) : Step Event := do
      goTo next
      pure ⟨kind, line⟩
    match t.kind with
    | .scalar text style =>
      let _ ← take
      goBack
      pure ⟨.scalar p text style, line⟩
    | .flowSequenceStart => begin (.sequenceStart p) .flowSequenceStart
    | .flowMappingStart => begin (.mappingStart p) .flowMappingStart
    | kind =>
      if indentless && kind == .blockEntry then
        if t.comments.any fun c => c.behind.isSome then
          annotate fun cs => .ok { cs.getD ⟨none, none, none⟩ with behind := none }
        begin (.sequenceStart p) .indentlessEntry
      else if block && kind == .blockSequenceStart then begin (.sequenceStart p) .sequenceStart
      else if block && kind == .blockMappingStart then begin (.mappingStart p) .mappingStart
      else if first?.isSome then
        goBack
        pure ⟨.scalar p [] .plain, line⟩
      else refuse (.noContent kind.label) t.line

/-- A node that may be left out where one of some tokens follows: `absent` tells them. -/
def optionalNode (absent : TokenKind → Bool) (line : Nat) (next : Expecting)
    (content : Step Event) : Step Event := do
  if absent (← peek).kind then
    goTo next
    pure (empty line)
  else
    goToAfterwards next
    content

/-- The end of a collection. -/
def close (kind : EventKind) (line : Nat) : Step Event := do
  goBack
  pure ⟨kind, line⟩

/-! ## Documents -/

/-- What the declarations before a document say. -/
structure Declared where
  /-- The second number of the version. -/
  minor : Option Nat
  /-- What the handles of tags stand for. -/
  handles : List (String × String)

/-- The declarations before a document, with those that were found so far. -/
def directives : Nat → Declared → Step Declared
  | 0, found => pure found
  | n + 1, found => do
    match ← peek with
    | ⟨.directive d, line, _⟩ =>
      let _ ← take
      match d with
      | .version major minor =>
        if found.minor.isSome then refuse .repeatedVersion line
        else if major != 1 then refuse .foreignVersion line
        else directives n { found with minor := some minor }
      | .handle handle start =>
        if (found.handles.lookup handle).isSome then refuse (.repeatedHandle handle) line
        else directives n { found with handles := found.handles ++ [(handle, start)] }
      | .other => directives n found
    | _ => pure found

/-- The meaning of the handles that the declarations before a document give.  Only two versions are
known. -/
def declaredHandles : Step (List (String × String)) := do
  let found ← directives (← get).tokens.cursor.turns ⟨none, []⟩
  match found.minor.filter fun n => n != 1 && n != 2 with
  | some minor => throw (.broken (.minorVersion 1 minor))
  | none => pure found.handles

/-- Passes over the ends of documents. -/
def skipEnds : Nat → Step Unit
  | 0 => pure ()
  | n + 1 => do
    match (← peek).kind with
    | .documentEnd =>
      let _ ← take
      skipEnds n
    | _ => pure ()

/-- A document that begins with its separator, or the end of the text. -/
def document : Step Event := do
  skipEnds (← get).tokens.cursor.turns
  let t ← peek
  if t.kind == .streamEnd then pure ⟨.streamEnd, t.line⟩
  else
    let declared ← declaredHandles
    let t ← peek
    if t.kind != .documentStart then refuse (.noDocumentStart t.kind.label) t.line
    else
      let _ ← take
      modify fun s => { s with handles := declared ++ defaultHandles }
      goToAfterwards .documentEnd
      goTo .documentContent
      pure ⟨.documentStart, t.line⟩

/-- A document that may begin without a separator. -/
def implicitDocument : Step Event := do
  let t ← peek
  match t.kind with
  | .directive _ | .documentStart | .streamEnd => document
  | _ =>
    modify fun s => { s with handles := defaultHandles }
    goToAfterwards .documentEnd
    goTo .blockNode
    pure ⟨.documentStart, t.line⟩

/-- The content of a document, which may be left out. -/
def documentContent : Step Event := do
  let t ← peek
  match t.kind with
  | .directive _ | .documentStart | .documentEnd | .streamEnd =>
    goBack
    pure (empty t.line)
  | _ => node true false

/-- The end of a document, marked or not.  Behind a mark nothing may follow on its line. -/
def documentEnd : Step Event := do
  let t ← peek
  if t.kind == .documentEnd then
    let _ ← take
    let after ← peek
    if after.kind != .streamEnd && after.line == t.line then
      refuse (.afterDocumentEnd after.kind.label) after.line
    else goTo (if (← get).tokens.old then .document else .implicitDocument)
  else goTo .document
  pure ⟨.documentEnd, t.line⟩

/-! ## Block collections -/

/-- An entry of a block sequence, or its end. -/
def sequenceEntry : Step Event := do
  let t ← peek
  match t.kind with
  | .blockEntry =>
    let _ ← takeMoving
    optionalNode (fun k => k == .blockEntry || k == .blockEnd) t.line .sequenceEntry
      (node true false)
  | .blockEnd =>
    let _ ← take
    close .sequenceEnd t.line
  | kind => refuse (.blockNotEnded kind.label) t.line

/-- An entry of a sequence that is not indented, or its end. -/
def indentlessEntry : Step Event := do
  let t ← peek
  match t.kind with
  | .blockEntry =>
    let _ ← takeMoving
    optionalNode (fun k => k == .blockEntry || k == .key || k == .value || k == .blockEnd) t.line
      .indentlessEntry (node true false)
  | _ => close .sequenceEnd t.line

/-- The token ends a key or a value of a block mapping. -/
def endsPart (k : TokenKind) : Bool := k == .key || k == .value || k == .blockEnd

/-- A key of a block mapping, or its end.  A value may stand without its key. -/
def mappingKey : Step Event := do
  let t ← peek
  match t.kind with
  | .key =>
    let _ ← takeMoving
    optionalNode endsPart t.line .mappingValue (node true true)
  | .blockEnd =>
    let _ ← takeMoving
    close .mappingEnd t.line
  | kind =>
    if kind == .value && (← get).tokens.recent then
      goTo .mappingValue
      pure (empty t.line)
    else refuse (.blockNotEnded kind.label) t.line

/-- The line of a value that is left out: that of the next token, to which the comments before it
are left, unless the colon `t` kept its comments. -/
def absentLine (t : Token) (kept : Option Comments) : Step Nat := do
  if kept.isSome then pure t.line
  else
    let next ← peek
    if next.comments.isSome then
      annotate fun cs => .ok ⟨none, cs.bind Comments.before, none⟩
    pure next.line

/-- A value of a block mapping.  The comments of its colon stay there if a key follows. -/
def mappingValue : Step Event := do
  if (← peek).kind == .value then
    let t ← take
    let next ← peek
    let kept ← if next.kind == .key then pure t.comments else moveComments t (next.kind != .value)
    if endsPart (← peek).kind then
      goTo .mappingKey
      pure (empty (← absentLine t kept))
    else
      goToAfterwards .mappingKey
      node true true
  else
    goTo .mappingKey
    pure (empty (← peek).line)

/-! ## Flow collections -/

/-- An entry of a flow sequence, or its end.  A pair is a mapping of its own. -/
def flowSequenceEntry : Step Event := do
  let t ← peek
  match t.kind with
  | .flowSequenceEnd =>
    let _ ← take
    close .sequenceEnd t.line
  | .key =>
    goTo .pairKey
    pure ⟨.mappingStart .none, t.line⟩
  | _ =>
    goToAfterwards .flowSequenceNext
    node false false

/-- A comma and an entry of a flow sequence, or its end. -/
def flowSequenceNext : Step Event := do
  let t ← peek
  match t.kind with
  | .flowSequenceEnd | .flowEntry =>
    if t.kind == .flowEntry then let _ ← take
    flowSequenceEntry
  | kind => refuse (.sequenceNotEnded kind.label) t.line

/-- The token ends an entry of a flow sequence. -/
def endsItem (k : TokenKind) : Bool := k == .flowEntry || k == .flowSequenceEnd

/-- The key of a pair. -/
def pairKey : Step Event := do
  let t ← takeMoving
  optionalNode (fun k => k == .value || endsItem k) t.line .pairValue (node false false)

/-- The value of a pair. -/
def pairValue : Step Event := do
  let t ← peek
  if t.kind == .value then
    let _ ← takeMoving
    optionalNode endsItem t.line .pairEnd (node false false)
  else
    goTo .pairEnd
    pure (empty t.line)

/-- The end of a pair. -/
def pairEnd : Step Event := do
  goTo .flowSequenceNext
  pure ⟨.mappingEnd, (← glance).line⟩

/-- The token ends an entry of a flow mapping. -/
def endsField (k : TokenKind) : Bool := k == .flowEntry || k == .flowMappingEnd

/-- A key of a flow mapping, or its end.  A key may stand without a value, and a value without a
key. -/
def flowMappingKey : Step Event := do
  let t ← peek
  match t.kind with
  | .flowMappingEnd =>
    let _ ← take
    close .mappingEnd t.line
  | .key =>
    let _ ← takeMoving
    optionalNode (fun k => k == .value || endsField k) t.line .flowMappingValue (node false false)
  | kind =>
    if kind == .value && (← get).tokens.recent then
      goTo .flowMappingValue
      pure (empty t.line)
    else
      goToAfterwards .flowMappingEmptyValue
      node false false

/-- A comma and a key of a flow mapping, or its end. -/
def flowMappingNext : Step Event := do
  let t ← peek
  match t.kind with
  | .flowMappingEnd | .flowEntry =>
    if t.kind == .flowEntry then let _ ← take
    flowMappingKey
  | kind => refuse (.mappingNotEnded kind.label) t.line

/-- A value of a flow mapping. -/
def flowMappingValue : Step Event := do
  let t ← peek
  if t.kind == .value then
    let _ ← takeMoving
    optionalNode endsField t.line .flowMappingNext (node false false)
  else
    goTo .flowMappingNext
    pure (empty t.line)

/-- The value of a key that has none. -/
def flowMappingEmptyValue : Step Event := do
  goTo .flowMappingNext
  pure (empty (← glance).line)

/-! ## The machine -/

/-- Takes the token that begins a collection, and goes on behind it. -/
def opened (content : Step Event) : Step Event := do
  let _ ← take
  content

/-- The next event. -/
def event : Step Event := do
  match (← get).state with
  | .stream =>
    let t ← takeMoving
    goTo .implicitDocument
    pure ⟨.streamStart, t.line⟩
  | .implicitDocument => implicitDocument
  | .document => document
  | .documentContent => documentContent
  | .documentEnd => documentEnd
  | .blockNode => node true false
  | .sequenceStart => opened sequenceEntry
  | .sequenceEntry => sequenceEntry
  | .indentlessEntry => indentlessEntry
  | .mappingStart => opened mappingKey
  | .mappingKey => mappingKey
  | .mappingValue => mappingValue
  | .flowSequenceStart => opened flowSequenceEntry
  | .flowSequenceEntry => flowSequenceEntry
  | .flowSequenceNext => flowSequenceNext
  | .pairKey => pairKey
  | .pairValue => pairValue
  | .pairEnd => pairEnd
  | .flowMappingStart => opened flowMappingKey
  | .flowMappingKey => flowMappingKey
  | .flowMappingNext => flowMappingNext
  | .flowMappingValue => flowMappingValue
  | .flowMappingEmptyValue => flowMappingEmptyValue

/-- Carries a result through the events that are left, up to the end of the text, together with the
version that the text declared so far. -/
def fold {α : Type} (f : α → Option (Nat × Nat) → Event → Outcome α) :
    Nat → EventStream → α → Outcome α
  | 0, _, a => .ok a
  | n + 1, s, a =>
    match event s with
    | .error e => .error e
    | .ok (e, s) =>
      match f a s.tokens.version e with
      | .error e => .error e
      | .ok a => if e.kind == .streamEnd then .ok a else fold f n s a

end EventStream

/-- Carries a result through the events of a text, one after another, together with the version that
was declared when an event was read; what stands behind the event with which it fails is not read.
A character makes at most five tokens, and a token at most four events. -/
def foldEvents {α : Type} (f : α → Option (Nat × Nat) → Event → Outcome α) (s : List Char)
    (a : α) : Outcome α :=
  EventStream.fold f (20 * s.length + 40) (.ofText s) a

end StylesheetTrace.Yaml
