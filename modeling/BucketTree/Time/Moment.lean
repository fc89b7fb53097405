/-!
# Calendar moments

A moment as a store reports it: what a wall clock shows, with the offset of that clock from
universal time or without one. A moment without an offset is read as universal time. Wall
clocks are kept as microseconds since the start of 1970; the Gregorian calendar enters only
where a moment is made from a date (`Moment.ofDate`) or shown (`Moment.shown`).
-/

set_option autoImplicit false

namespace BucketTree

/-- A reading of a wall clock in microseconds since the start of 1970, and the offset of the
clock from universal time in microseconds. -/
structure Moment where
  wall : Int
  offset : Option Int
deriving DecidableEq, Repr

/-- A date and a time of day. -/
structure Calendar where
  year : Int
  month : Int
  day : Int
  hour : Int
  minute : Int
  second : Int
  microsecond : Int
deriving DecidableEq, Repr

namespace Calendar

/-- The number of days in a month. -/
def daysIn (year month : Int) : Int :=
  if month = 2 then
    if year % 4 = 0 ∧ (year % 100 ≠ 0 ∨ year % 400 = 0) then 29 else 28
  else if month = 4 ∨ month = 6 ∨ month = 9 ∨ month = 11 then 30
  else 31

/-- Days from the start of 1970 to a date. Years begin in March here, so that the leap day
is the last of its year; an era has 400 years and 146097 days. -/
def daysTo (year month day : Int) : Int :=
  let y := if month ≤ 2 then year - 1 else year
  let era := y.fdiv 400
  let yearOfEra := y - era * 400
  let monthFromMarch := if 2 < month then month - 3 else month + 9
  let dayOfYear := (153 * monthFromMarch + 2).fdiv 5 + day - 1
  let dayOfEra := yearOfEra * 365 + yearOfEra.fdiv 4 - yearOfEra.fdiv 100 + dayOfYear
  era * 146097 + dayOfEra - 719468

/-- The date a number of days after the start of 1970, as year, month and day. -/
def dateAfter (days : Int) : Int × Int × Int :=
  let z := days + 719468
  let era := z.fdiv 146097
  let dayOfEra := z - era * 146097
  let yearOfEra := (dayOfEra - dayOfEra.fdiv 1460 + dayOfEra.fdiv 36524 -
    dayOfEra.fdiv 146096).fdiv 365
  let dayOfYear := dayOfEra - (365 * yearOfEra + yearOfEra.fdiv 4 - yearOfEra.fdiv 100)
  let monthFromMarch := (5 * dayOfYear + 2).fdiv 153
  let day := dayOfYear - (153 * monthFromMarch + 2).fdiv 5 + 1
  let month := if monthFromMarch < 10 then monthFromMarch + 3 else monthFromMarch - 9
  let year := yearOfEra + era * 400
  (if month ≤ 2 then year + 1 else year, month, day)

/-- Microseconds from the start of 1970. -/
def micros (c : Calendar) : Int :=
  (((daysTo c.year c.month c.day * 24 + c.hour) * 60 + c.minute) * 60 + c.second) * 1000000 +
    c.microsecond

/-- The date and time of day a number of microseconds after the start of 1970. -/
def ofMicros (wall : Int) : Calendar :=
  let days := wall.fdiv 86400000000
  let rest := wall - days * 86400000000
  let (year, month, day) := dateAfter days
  let seconds := rest.fdiv 1000000
  ⟨year, month, day, seconds.fdiv 3600, (seconds.fdiv 60).fmod 60, seconds.fmod 60,
    rest.fmod 1000000⟩

end Calendar

namespace Moment

/-- The moment at which a clock with the given offset shows a date and a time of day. -/
def ofDate (date : Calendar) (offset : Option Int) : Moment := ⟨date.micros, offset⟩

/-- Microseconds from the start of 1970, universal time, to the moment. -/
def epochMicros (t : Moment) : Int := t.wall - t.offset.getD 0

/-- The text of a span of microseconds: whole days, rounded down, and the remaining seconds and
microseconds. -/
def shownSpan (micros : Int) : String :=
  let days := micros.fdiv 86400000000
  let rest := micros - days * 86400000000
  let seconds := rest.fdiv 1000000
  let fraction := rest - seconds * 1000000
  let parts := (if days = 0 then [] else [s!"days={days}"]) ++
    (if seconds = 0 then [] else [s!"seconds={seconds}"]) ++
    (if fraction = 0 then [] else [s!"microseconds={fraction}"])
  "datetime.timedelta(" ++ (if parts.isEmpty then "0" else ", ".intercalate parts) ++ ")"

/-- The text of an offset. -/
def shownOffset (micros : Int) : String :=
  if micros = 0 then "datetime.timezone.utc" else "datetime.timezone(" ++ shownSpan micros ++ ")"

/-- The text of a moment inside a message. Zeros below the minute are left out. -/
def shown (t : Moment) : String :=
  let c := Calendar.ofMicros t.wall
  let fine :=
    if c.microsecond ≠ 0 then [c.second, c.microsecond]
    else if c.second ≠ 0 then [c.second]
    else []
  let numbers := [c.year, c.month, c.day, c.hour, c.minute] ++ fine
  let zone := match t.offset with
    | none => []
    | some micros => ["tzinfo=" ++ shownOffset micros]
  "datetime.datetime(" ++ ", ".intercalate (numbers.map toString ++ zone) ++ ")"

end Moment

end BucketTree
