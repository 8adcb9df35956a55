import StylesheetTrace.Text.Quoted
import StylesheetTrace.Yaml.Breakdown

/-!
# Dates and times of day

A date is written as a year of four digits, a month and a day.  A time of day may follow, and behind
that an offset, which is kept beside the time.  Fractions of a second are kept in millionths.
-/

namespace StylesheetTrace.Yaml

open StylesheetTrace.Text

/-- A time of day. -/
structure Clock where
  /-- The hour. -/
  hour : Nat
  /-- The minute. -/
  minute : Nat
  /-- The second. -/
  second : Nat
  /-- The millionths of a second. -/
  micro : Nat
  deriving Repr, DecidableEq

/-- How far a clock is ahead of that of the zero meridian. -/
structure Offset where
  /-- The offset as it is written. -/
  text : String
  /-- The offset in seconds. -/
  seconds : Int
  deriving Repr, DecidableEq

/-- A date, with a time of day if one is given. -/
structure Moment where
  /-- The year. -/
  year : Nat
  /-- The month, from 1. -/
  month : Nat
  /-- The day of the month, from 1. -/
  day : Nat
  /-- The time of day. -/
  clock : Option Clock
  /-- A `T` stands between the date and the time. -/
  marked : Bool
  /-- The offset of the time. -/
  offset : Option Offset
  deriving Repr, DecidableEq

namespace Moment

/-- From `least` to `most` digits, and the text after them. -/
def digits? (least most : Nat) (s : List Char) : Option (Nat × List Char) :=
  let ds := s.takeWhile Char.isDigit
  if least ≤ ds.length ∧ ds.length ≤ most then some (digitsValue ds, s.drop ds.length) else none

/-- One character, and the text after it. -/
def expect? (c : Char) (s : List Char) : Option (List Char) :=
  if s.head? == some c then some (s.drop 1) else none

/-- A blank or a tabulator. -/
def isBlank (c : Char) : Bool := c == ' ' || c == '\t'

/-- The millionths of a second that the digits of a fraction give, rounded by the seventh digit, up
to a whole second.  -/
def micros (ds : List Char) : Nat :=
  let more := (ds.drop 6).head?.any fun c => decide ('4' < c)
  digitsValue ((ds ++ List.replicate 6 '0').take 6) + if more then 1 else 0

/-- An offset of hours and minutes up to the end of the text. -/
def signedOffset? (sign : Char) (s : List Char) : Option Offset := do
  let (hours, rest) ← digits? 1 2 s
  let minutes ← match rest with
    | [] => some 0
    | _ => do
      let (minutes, rest) ← digits? 2 2 (← expect? ':' rest)
      if rest.isEmpty then some minutes else none
  let seconds : Int := 3600 * hours + 60 * minutes
  pure ⟨String.ofList (sign :: s), if sign == '-' then -seconds else seconds⟩

/-- An offset up to the end of the text, or nothing. -/
def offset? (s : List Char) : Option (Option Offset) :=
  match s with
  | [] => some none
  | _ =>
    match s.dropWhile isBlank with
    | ['Z'] => some (some ⟨"Z", 0⟩)
    | c :: t => if c == '+' || c == '-' then (signedOffset? c t).map some else none
    | [] => none

/-- A time of day and an offset, up to the end of the text. -/
def clock? (s : List Char) : Option (Clock × Option Offset) := do
  let (hour, s) ← digits? 1 2 s
  let (minute, s) ← digits? 2 2 (← expect? ':' s)
  let (second, s) ← digits? 2 2 (← expect? ':' s)
  let fraction := match s with
    | '.' :: t => t.takeWhile Char.isDigit
    | _ => []
  let s := match s with
    | '.' :: t => t.dropWhile Char.isDigit
    | _ => s
  let offset ← offset? s
  pure (⟨hour, minute, second, micros fraction⟩, offset)

/-- The moment that a text writes, whether it exists or not.  A line feed may end the text. -/
def read? (s : List Char) : Option Moment := do
  let s := if s.getLast? == some '\n' then s.dropLast else s
  let (year, s) ← digits? 4 4 s
  let (month, s) ← digits? 1 2 (← expect? '-' s)
  let (day, s) ← digits? 1 2 (← expect? '-' s)
  match s with
  | [] => pure ⟨year, month, day, none, false, none⟩
  | c :: t =>
    let marked := c == 'T' || c == 't'
    if marked || isBlank c then
      let (clock, offset) ← clock? (if marked then t else t.dropWhile isBlank)
      pure ⟨year, month, day, some clock, marked, offset⟩
    else none

/-- A plain scalar that looks like a moment: without a time of day, the month and the day have two
digits each. -/
def looksLike (s : List Char) : Bool :=
  (read? s).any fun m => m.clock.isSome || s.length == 10

/-- The year has a twenty-ninth of February. -/
def isLeap (year : Nat) : Bool :=
  year % 4 == 0 && (year % 100 != 0 || year % 400 == 0)

/-- How many days a month has. -/
def daysIn (year month : Nat) : Nat :=
  if month = 2 then (if isLeap year then 29 else 28)
  else if month = 4 ∨ month = 6 ∨ month = 9 ∨ month = 11 then 30
  else 31

/-- The date of the next day. -/
def nextDay (m : Moment) : Moment :=
  if m.day < daysIn m.year m.month then { m with day := m.day + 1 }
  else if m.month < 12 then { m with month := m.month + 1, day := 1 }
  else { m with year := m.year + 1, month := 1, day := 1 }

/-- The moment with the clock moved on by a whole second that its fraction was rounded up to. -/
def carried (m : Moment) (c : Clock) : Moment :=
  if c.micro < 1000000 then m
  else
    let c := { c with micro := 0 }
    if c.second < 59 then { m with clock := some { c with second := c.second + 1 } }
    else if c.minute < 59 then
      { m with clock := some { c with minute := c.minute + 1, second := 0 } }
    else if c.hour < 23 then { m with clock := some ⟨c.hour + 1, 0, 0, 0⟩ }
    else { m.nextDay with clock := some ⟨0, 0, 0, 0⟩ }

/-- An offset is less than a day. -/
def checkOffset (m : Moment) : Except Breakdown Unit :=
  match m.offset with
  | none => .ok ()
  | some o => if o.seconds.natAbs < 86400 then .ok () else .error (.offset o.seconds)

/-- The date exists. -/
def checkDate (m : Moment) : Except Breakdown Unit :=
  if m.year = 0 then .error (.time (.year m.year))
  else if m.month = 0 ∨ m.month > 12 then .error (.time .month)
  else if m.day = 0 ∨ m.day > daysIn m.year m.month then .error (.time .day)
  else .ok ()

/-- The time of day exists. -/
def checkClock (c : Clock) : Except Breakdown Unit :=
  if c.hour > 23 then .error (.time .hour)
  else if c.minute > 59 then .error (.time .minute)
  else if c.second > 59 then .error (.time .second)
  else .ok ()

/-- The moment, with its fraction of a second carried over, if it exists. -/
def check (m : Moment) : Except Breakdown Moment := do
  m.checkOffset
  m.checkDate
  match m.clock with
  | none => pure m
  | some c =>
    checkClock c
    let m := m.carried c
    if m.year > 9999 then throw .lateMoment
    pure m

/-- How many days have passed before a date, from the first day of the first year on. -/
def dayNumber (m : Moment) : Nat :=
  let before := m.year - 1
  let months := (List.range (m.month - 1)).foldl (fun n i => n + daysIn m.year (i + 1)) 0
  365 * before + before / 4 - before / 100 + before / 400 + months + (m.day - 1)

/-- The millionths of a second from the beginning of the first year to the moment at the zero
meridian. -/
def instant (m : Moment) (c : Clock) (o : Offset) : Int :=
  let seconds : Nat := 86400 * m.dayNumber + 3600 * c.hour + 60 * c.minute + c.second
  1000000 * ((seconds : Int) - o.seconds) + c.micro

/-- Two moments are the same.  With offsets their instants count; a moment with an offset is never
the same as one without. -/
def same (m n : Moment) : Bool :=
  match m.clock, m.offset, n.clock, n.offset with
  | some c, some o, some d, some p => m.instant c o == n.instant d p
  | c, none, d, none => m.year == n.year && m.month == n.month && m.day == n.day && c == d
  | _, _, _, _ => false

/-- An offset in hours and minutes. -/
def clockText (o : Offset) : String :=
  let minutes := o.seconds.natAbs / 60
  let sign := if o.seconds < 0 then "-" else "+"
  s!"{sign}{padded 2 (minutes / 60)}:{padded 2 (minutes % 60)}"

/-- The moment as it is written. -/
def text (m : Moment) : String :=
  let date := s!"{padded 4 m.year}-{padded 2 m.month}-{padded 2 m.day}"
  match m.clock with
  | none => date
  | some c =>
    let time := s!"{padded 2 c.hour}:{padded 2 c.minute}:{padded 2 c.second}"
    let fraction := if c.micro = 0 then "" else "." ++ padded 6 c.micro
    let offset := m.offset.elim "" clockText
    date ++ (if m.marked then "T" else " ") ++ time ++ fraction ++ offset

/-- The offset as messages show it. -/
def shownOffset (o : Offset) : String :=
  s!", tzinfo=datetime.timezone({spanText o.seconds}, {quoted o.text})"

/-- The moment as messages show it inside of a list. -/
def shown (m : Moment) : String :=
  let date := s!"{m.year}, {m.month}, {m.day}"
  match m.clock with
  | none => s!"datetime.date({date})"
  | some c =>
    let signed := m.offset.any fun o => o.text != "Z"
    let kind := if m.marked || signed then "TimeStamp" else "datetime.datetime"
    let rest :=
      if c.micro ≠ 0 then s!", {c.second}, {c.micro}"
      else if c.second ≠ 0 then s!", {c.second}"
      else ""
    let offset := m.offset.elim "" shownOffset
    s!"{kind}({date}, {c.hour}, {c.minute}{rest}{offset})"

end Moment

end StylesheetTrace.Yaml
