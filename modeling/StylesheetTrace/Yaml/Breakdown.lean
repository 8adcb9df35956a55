import StylesheetTrace.Text.Number
import StylesheetTrace.Text.Quoted

/-!
# What breaks off the reading of a YAML text

Some texts are not refused with a line to blame: reading them breaks off.  A scalar may have no
value of the type that it claims, a key may be none that can be looked up, and two comments may fall
on the same place of one token.
-/

namespace StylesheetTrace.Yaml

open StylesheetTrace.Text

/-- Why numbers make no date or no time of day. -/
inductive TimeError where
  | year (n : Nat)
  | month
  | day
  | hour
  | minute
  | second
  deriving Repr, DecidableEq

/-- The wording of the error. -/
def TimeError.message : TimeError → String
  | year n => s!"year {n} is out of range"
  | month => "month must be in 1..12"
  | day => "day is out of range for month"
  | hour => "hour must be in 0..23"
  | minute => "minute must be in 0..59"
  | second => "second must be in 0..59"

/-- A span of time as messages show it, in days and seconds, of which only the days may be
negative. -/
def spanText (seconds : Int) : String :=
  let days := seconds / 86400
  let rest := seconds % 86400
  let parts := (if days = 0 then [] else [s!"days={days}"]) ++
    if rest = 0 then [] else [s!"seconds={rest}"]
  let text := if parts.isEmpty then "0" else ", ".intercalate parts
  s!"datetime.timedelta({text})"

/-- Why the reading of a text breaks off. -/
inductive Breakdown where
  | codePoint (n : Nat)
  | emptyText
  | tooLong (e : TooLong)
  | longNumber
  | noReal (text : String)
  | noWhole (base : Nat) (text : String)
  | exponentParts (count : Nat)
  | time (e : TimeError)
  | offset (seconds : Int)
  | lateMoment
  | truth (word : String)
  | version (major minor : Nat)
  | minorVersion (major minor : Nat)
  | overlap (moved kept : String)
  | repeatedPart
  | unhashable (type : String)
  | keyOfPairs
  | mergeOfSet
  | scalarCollection
  deriving Repr, DecidableEq

/-- The wording of the breakdown. -/
def Breakdown.message : Breakdown → String
  | codePoint n =>
    if n < 0x80000000 then "chr() arg not in range(0x110000)"
    else "Python int too large to convert to C int"
  | emptyText => "string index out of range"
  | tooLong e => e.message
  | longNumber =>
    s!"Exceeds the limit ({TooLong.limit} digits) for integer string conversion; " ++
      "use sys.set_int_max_str_digits() to increase the limit"
  | noReal text => s!"could not convert string to float: {quoted text}"
  | noWhole base text =>
    s!"invalid literal for int() with base {base}: " ++
      String.ofList ((quoted text).toList.take 200)
  | exponentParts count =>
    if count < 2 then s!"not enough values to unpack (expected 2, got {count})"
    else "too many values to unpack (expected 2)"
  | time e => e.message
  | offset seconds =>
    "offset must be a timedelta strictly between -timedelta(hours=24) and timedelta(hours=24), " ++
      s!"not {spanText seconds}."
  | lateMoment => "date value out of range"
  | truth word => word
  | version major minor => s!"({major}, {minor})"
  | minorVersion major minor =>
    s!"version minor part can only be 2 or 1, got ({major}, {minor})"
  | overlap moved kept => s!"overlap in comment {moved} {kept}"
  | repeatedPart => ""
  | unhashable type => s!"unhashable type: {quoted type}"
  | keyOfPairs => "'list' object has no attribute 'lc'"
  | mergeOfSet => "'CommentedSet' object has no attribute 'add_referent'"
  | scalarCollection => "'ScalarNode' object has no attribute 'flow_style'"

end StylesheetTrace.Yaml
