import BucketTree.Number.Word
import BucketTree.Value

/-!
# Moments from parts

A moment can be given as a list: the date and the time of day from the year down to the
microsecond, and last the offset of the clock in minutes, or nothing for a clock without one.
The parts may be of any type. `Moment.ofParts` checks the offset first, then the parts one by
one, then their ranges; a `MomentFault` says what is wrong.
-/

set_option autoImplicit false

namespace BucketTree

/-- A part of a date and a time of day. -/
inductive DatePart where
  | year
  | month
  | day
  | hour
  | minute
  | second
  | microsecond
deriving DecidableEq, Repr

/-- The reason for which a moment cannot be made. -/
inductive MomentFault where
  /-- The list has no parts. -/
  | noParts
  /-- The offset is not a number. -/
  | offsetType (typeName : String)
  /-- The offset is NaN. -/
  | offsetNotANumber
  /-- The offset is infinite. -/
  | offsetInfinite
  /-- A span has more days than any span may have. -/
  | manyDays (days : Int)
  /-- A span has more days than a machine integer holds. -/
  | countlessDays
  /-- The offset is a day or more. -/
  | wideOffset (micros : Int)
  /-- More parts are given than there are. -/
  | manyParts (count : Nat)
  /-- The offset is given twice. -/
  | twoOffsets
  /-- A part that must be given is missing. -/
  | missing (part : DatePart)
  /-- A part is not an integer. -/
  | partType (typeName : String)
  /-- A part does not fit a machine word. -/
  | wordRange
  /-- A part is above the range of a machine integer. -/
  | aboveRange
  /-- A part is below the range of a machine integer. -/
  | belowRange
  /-- The calendar does not have the year. -/
  | noYear (year : Int)
  /-- The calendar does not have the part. -/
  | outOfRange (part : DatePart)
  /-- The moment is before or after all years of the calendar. -/
  | beyondCalendar
deriving DecidableEq, Repr

namespace DatePart

/-- The name of a part. -/
def name : DatePart → String
  | .year => "year"
  | .month => "month"
  | .day => "day"
  | .hour => "hour"
  | .minute => "minute"
  | .second => "second"
  | .microsecond => "microsecond"

/-- The place of a part, counted from one. -/
def place : DatePart → Nat
  | .year => 1
  | .month => 2
  | .day => 3
  | .hour => 4
  | .minute => 5
  | .second => 6
  | .microsecond => 7

/-- The default of a part, if it has one. -/
def default? : DatePart → Option Int
  | .year => none
  | .month => none
  | .day => none
  | _ => some 0

/-- The words for a part that the calendar does not have. -/
def rangeText : DatePart → String
  | .year => "year is out of range"
  | .month => "month must be in 1..12"
  | .day => "day is out of range for month"
  | .hour => "hour must be in 0..23"
  | .minute => "minute must be in 0..59"
  | .second => "second must be in 0..59"
  | .microsecond => "microsecond must be in 0..999999"

end DatePart

namespace MomentFault

/-- The name of the fault, as it shows in messages. -/
def typeName : MomentFault → String
  | .noParts => "ValueError"
  | .offsetType _ => "TypeError"
  | .offsetNotANumber => "ValueError"
  | .offsetInfinite => "OverflowError"
  | .manyDays _ => "OverflowError"
  | .countlessDays => "OverflowError"
  | .wideOffset _ => "ValueError"
  | .manyParts _ => "TypeError"
  | .twoOffsets => "TypeError"
  | .missing _ => "TypeError"
  | .partType _ => "TypeError"
  | .wordRange => "OverflowError"
  | .aboveRange => "OverflowError"
  | .belowRange => "OverflowError"
  | .noYear _ => "ValueError"
  | .outOfRange _ => "ValueError"
  | .beyondCalendar => "OverflowError"

/-- The words for a fault. -/
def text : MomentFault → String
  | .noParts => "not enough values to unpack (expected at least 1, got 0)"
  | .offsetType name => "unsupported type for timedelta minutes component: " ++ name
  | .offsetNotANumber => "cannot convert float NaN to integer"
  | .offsetInfinite => "cannot convert float infinity to integer"
  | .manyDays days => s!"days={days}; must have magnitude <= 999999999"
  | .countlessDays => "Python int too large to convert to C int"
  | .wideOffset micros =>
      "offset must be a timedelta strictly between -timedelta(hours=24) and " ++
        "timedelta(hours=24), not " ++ Moment.shownSpan micros ++ "."
  | .manyParts count => s!"function takes at most 9 arguments ({count} given)"
  | .twoOffsets => "argument for function given by name ('tzinfo') and position (8)"
  | .missing part => s!"function missing required argument '{part.name}' (pos {part.place})"
  | .partType name => s!"'{name}' object cannot be interpreted as an integer"
  | .wordRange => "Python int too large to convert to C long"
  | .aboveRange => "signed integer is greater than maximum"
  | .belowRange => "signed integer is less than minimum"
  | .noYear year => s!"year {year} is out of range"
  | .outOfRange part => part.rangeText
  | .beyondCalendar => "date value out of range"

end MomentFault

namespace Moment

/-- The microseconds of a minute. -/
def minuteMicros : Nat := 60000000

/-- The microseconds of a day. -/
def dayMicros : Int := 86400000000

/-- One more than the largest machine integer. -/
def integerBound : Int := 2147483648

/-- The fault of a span that cannot be counted in days. -/
def spanFault? (micros : Int) : Option MomentFault :=
  let days := micros.fdiv dayMicros
  if days < -integerBound || integerBound ≤ days then some .countlessDays
  else if days < -999999999 || 999999999 < days then some (.manyDays days)
  else none

/-- A span of minutes in microseconds. The whole minutes are exact, and the rest is rounded as a
binary number first. -/
def minutesToMicros : Value → Except MomentFault Int
  | .bool b => .ok (if b then minuteMicros else 0)
  | .int n => .ok (n * minuteMicros)
  | .real x => .ok (x.truncate * minuteMicros + (x.fraction.times minuteMicros).round)
  | .infinite _ => .error .offsetInfinite
  | .notANumber => .error .offsetNotANumber
  | other => .error (.offsetType other.typeName)

/-- The offset of a clock, given in minutes or absent. -/
def offsetOf : Value → Except MomentFault (Option Int)
  | .null => .ok none
  | minutes => do
      let micros ← minutesToMicros minutes
      match spanFault? micros with
      | some fault => throw fault
      | none =>
          if -dayMicros < micros ∧ micros < dayMicros then return some micros
          else throw (.wideOffset micros)

/-- A part as a machine integer. -/
def partOf (v : Value) : Except MomentFault Int :=
  let sized (n : Int) : Except MomentFault Int :=
    if !Word.fits n then .error .wordRange
    else if n < -integerBound then .error .belowRange
    else if integerBound ≤ n then .error .aboveRange
    else .ok n
  match v with
  | .bool b => .ok (if b then 1 else 0)
  | .int n => sized n
  | other => .error (.partType other.typeName)

/-- The part at the head of a list, and the parts after it. -/
def nextPart (part : DatePart) : List Value → Except MomentFault (Int × List Value)
  | [] =>
      match part.default? with
      | some n => .ok (n, [])
      | none => .error (.missing part)
  | v :: rest => (partOf v).map fun n => (n, rest)

/-- The first part of a date that the calendar does not have. -/
def rangeFault? (c : Calendar) : Option MomentFault :=
  if c.year < 1 || 9999 < c.year then some (.noYear c.year)
  else if c.month < 1 || 12 < c.month then some (.outOfRange .month)
  else if c.day < 1 || Calendar.daysIn c.year c.month < c.day then some (.outOfRange .day)
  else if c.hour < 0 || 23 < c.hour then some (.outOfRange .hour)
  else if c.minute < 0 || 59 < c.minute then some (.outOfRange .minute)
  else if c.second < 0 || 59 < c.second then some (.outOfRange .second)
  else if c.microsecond < 0 || 999999 < c.microsecond then some (.outOfRange .microsecond)
  else none

/-- The largest number of parts in a list, without the offset at its end. -/
def mostParts : Nat := 8

/-- A date and a time of day from their parts. -/
def dateOf (parts : List Value) : Except MomentFault Calendar := do
  if mostParts < parts.length then throw (.manyParts (parts.length + 1))
  let (year, rest) ← nextPart .year parts
  let (month, rest) ← nextPart .month rest
  let (day, rest) ← nextPart .day rest
  let (hour, rest) ← nextPart .hour rest
  let (minute, rest) ← nextPart .minute rest
  let (second, rest) ← nextPart .second rest
  let (microsecond, rest) ← nextPart .microsecond rest
  unless rest.isEmpty do throw .twoOffsets
  let date : Calendar := ⟨year, month, day, hour, minute, second, microsecond⟩
  match rangeFault? date with
  | some fault => throw fault
  | none => return date

/-- The moment given by a list of parts. -/
def ofParts (parts : List Value) : Except MomentFault Moment :=
  match parts.getLast? with
  | none => .error .noParts
  | some last => do
      let offset ← offsetOf last
      return .ofDate (← dateOf parts.dropLast) offset

/-- The microseconds from the start of 1970 to the first moment of the calendar. -/
def firstMicros : Int := -62135596800000000

/-- The microseconds from the start of 1970 to the last moment of the calendar. -/
def lastMicros : Int := 253402300799999999

/-- The fault of a clock that cannot show a number of microseconds since the start of 1970. -/
def clockFault? (micros : Int) : Option MomentFault :=
  (spanFault? micros).or
    (if micros < firstMicros || lastMicros < micros then some .beyondCalendar else none)

end Moment

end BucketTree
