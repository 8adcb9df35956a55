import StylesheetTrace.Text.Quoted

/-!
# UTF-8

A row of bytes is decoded, or refused at the first sequence that is not well-formed.  The refused
sequence is the longest beginning of a well-formed one, and one byte at least.
-/

namespace StylesheetTrace.Text.Utf8

/-- Why a sequence of bytes is refused. -/
inductive Reason where
  | startByte
  | continuationByte
  | endOfData
  deriving Repr, DecidableEq

/-- The wording of a reason. -/
def Reason.label : Reason → String
  | startByte => "invalid start byte"
  | continuationByte => "invalid continuation byte"
  | endOfData => "unexpected end of data"

/-- A refused sequence. -/
structure DecodeError where
  /-- Its first byte. -/
  byte : Nat
  /-- Where it begins, counted from 0. -/
  position : Nat
  /-- How long it is. -/
  size : Nat
  /-- Why it is refused. -/
  reason : Reason
  deriving Repr, DecidableEq

/-- The wording of the error. -/
def DecodeError.message (e : DecodeError) : String :=
  if e.size = 1 then
    s!"'utf-8' codec can't decode byte 0x{String.ofList (hexDigits 2 e.byte)} in position " ++
      s!"{e.position}: {e.reason.label}"
  else
    s!"'utf-8' codec can't decode bytes in position {e.position}-{e.position + e.size - 1}: " ++
      e.reason.label

/-- A byte that goes on with a sequence. -/
def isContinuation (b : Nat) : Bool := decide (0x80 ≤ b ∧ b < 0xc0)

/-- A byte that may follow the first of a sequence: the forms that are longer than needed, the
surrogates and the numbers above the last character are left out. -/
def isSecond (first b : Nat) : Bool :=
  isContinuation b &&
    (if first = 0xe0 then decide (0xa0 ≤ b)
     else if first = 0xed then decide (b < 0xa0)
     else if first = 0xf0 then decide (0x90 ≤ b)
     else if first = 0xf4 then decide (b < 0x90)
     else true)

/-- How many bytes a sequence with the given first byte has, none if no sequence begins so. -/
def sequenceSize (first : Nat) : Nat :=
  if first < 0x80 then 1
  else if 0xc2 ≤ first ∧ first ≤ 0xdf then 2
  else if 0xe0 ≤ first ∧ first ≤ 0xef then 3
  else if 0xf0 ≤ first ∧ first ≤ 0xf4 then 4
  else 0

/-- The beginning of `bs` that may follow the first byte of a sequence of the given size. -/
def continuation (first size : Nat) (bs : List Nat) : List Nat :=
  match bs with
  | [] => []
  | b :: rest =>
    if isSecond first b then b :: (rest.take (size - 2)).takeWhile isContinuation else []

/-- The code point of a sequence. -/
def codePoint (first : Nat) (more : List Nat) : Nat :=
  let start :=
    match more.length with
    | 0 => first
    | 1 => first % 32
    | 2 => first % 16
    | _ => first % 8
  more.foldl (fun n b => n * 64 + b % 64) start

/-- The characters from a position on, with those decoded so far in reverse.  Each takes at least
one byte, so that a bound of the number of bytes suffices. -/
def decodeFrom : Nat → Nat → List Nat → List Char → Except DecodeError (List Char)
  | 0, _, _, found => .ok found.reverse
  | _ + 1, _, [], found => .ok found.reverse
  | n + 1, position, b :: rest, found =>
    let size := sequenceSize b
    if size = 0 then .error ⟨b, position, 1, .startByte⟩
    else if size = 1 then decodeFrom n (position + 1) rest (Char.ofNat b :: found)
    else
      let more := continuation b size rest
      if more.length + 1 = size then
        decodeFrom n (position + size) (rest.drop more.length)
          (Char.ofNat (codePoint b more) :: found)
      else
        let reason := if rest.length = more.length then Reason.endOfData else .continuationByte
        .error ⟨b, position, more.length + 1, reason⟩

/-- The text that bytes encode. -/
def decode (bytes : List Nat) : Except DecodeError (List Char) :=
  decodeFrom (bytes.length + 1) 0 bytes []

/-- The text that bytes encode, with a replacement character for each refused sequence.  A refused
sequence has at least one byte, so that a bound of the number of bytes suffices. -/
def decodeLossyFrom : Nat → List Nat → List Char
  | 0, _ => []
  | n + 1, bytes =>
    match decode bytes with
    | .ok s => s
    | .error e =>
      let good := match decode (bytes.take e.position) with
        | .ok s => s
        | .error _ => []
      good ++ '\ufffd' :: decodeLossyFrom n (bytes.drop (e.position + e.size))

/-- The text that bytes encode, with a replacement character for each refused sequence. -/
def decodeLossy (bytes : List Nat) : List Char :=
  decodeLossyFrom (bytes.length + 1) bytes

/-- The bytes of a text. -/
def encode (s : String) : List Nat := s.toUTF8.toList.map UInt8.toNat

end StylesheetTrace.Text.Utf8
