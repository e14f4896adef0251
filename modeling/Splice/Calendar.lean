import Splice.Binary64.Printer

/-! # Dates and times

Dates of the Gregorian calendar, times of day, and instants counted in microseconds. The written
form of an instant leaves the fraction out when it is zero.
-/

namespace Splice

/-- A number in decimal digits, with zeros in front up to `width`. -/
def padded (width n : Nat) : List Char :=
  let digits := Binary64.wholeDigits n
  List.replicate (width - digits.length) '0' ++ digits

structure Date where
  year : Nat
  month : Nat
  day : Nat
  deriving DecidableEq, Repr, Inhabited

structure TimeOfDay where
  hour : Nat
  minute : Nat
  second : Nat
  micro : Nat
  deriving DecidableEq, Repr, Inhabited

/-- A date and a time, with the distance to universal time in minutes if it is given. -/
structure Timestamp where
  date : Date
  time : TimeOfDay
  offset : Option Int
  deriving DecidableEq, Repr, Inhabited

/-- A span of minutes as a literal: whole days, and seconds that are never negative. -/
def spanLiteral (minutes : Int) : String :=
  let days := Int.fdiv minutes 1440
  let seconds := Int.fmod minutes 1440 * 60
  let parts := (if days = 0 then [] else ["days=" ++ toString days]) ++
    (if seconds = 0 then [] else ["seconds=" ++ toString seconds])
  "datetime.timedelta(" ++ (if parts.isEmpty then "0" else ", ".intercalate parts) ++ ")"

inductive CalendarError where
  | year (n : Nat)
  | month
  | day
  | hour
  | minute
  | second
  | offset (minutes : Int)
  deriving DecidableEq, Repr

def CalendarError.message : CalendarError → String
  | .year n => "year " ++ toString n ++ " is out of range"
  | .month => "month must be in 1..12"
  | .day => "day is out of range for month"
  | .hour => "hour must be in 0..23"
  | .minute => "minute must be in 0..59"
  | .second => "second must be in 0..59"
  | .offset minutes =>
    "offset must be a timedelta strictly between -timedelta(hours=24) and timedelta(hours=24), not " ++
      spanLiteral minutes ++ "."

namespace Date

def isLeap (year : Nat) : Bool :=
  year % 4 == 0 && (year % 100 != 0 || year % 400 == 0)

def monthLength (year month : Nat) : Nat :=
  if month = 2 then if isLeap year then 29 else 28
  else if month = 4 ∨ month = 6 ∨ month = 9 ∨ month = 11 then 30
  else 31

/-- The date of the given numbers, if the calendar has it. -/
def of (year month day : Nat) : Except CalendarError Date :=
  if year < 1 then .error (.year year)
  else if month < 1 ∨ 12 < month then .error .month
  else if day < 1 ∨ monthLength year month < day then .error .day
  else .ok ⟨year, month, day⟩

/-- The days from the first day of year 1 to the first day of a year. -/
def daysBeforeYear (year : Nat) : Nat :=
  let past := year - 1
  365 * past + past / 4 - past / 100 + past / 400

/-- The days from the first day of a year to the first day of a month. -/
def daysBeforeMonth (year : Nat) : Nat → Nat
  | 0 => 0
  | 1 => 0
  | month + 1 => daysBeforeMonth year month + monthLength year month

/-- The days from the first day of year 1. -/
def toDays (d : Date) : Nat :=
  daysBeforeYear d.year + daysBeforeMonth d.year d.month + (d.day - 1)

/-- The year that a count of days from the first day of year 1 falls into. -/
def yearOfDays (days : Nat) : Nat :=
  let centuries := min 3 (days % 146097 / 36524)
  let inCentury := days % 146097 - 36524 * centuries
  let years := min 3 (inCentury % 1461 / 365)
  400 * (days / 146097) + 100 * centuries + 4 * (inCentury / 1461) + years + 1

/-- The last month among the first `count + 1` ones that starts no later than a day of its year. -/
def monthOfDay (year dayOfYear : Nat) : Nat → Nat
  | 0 => 1
  | count + 1 =>
    if daysBeforeMonth year (count + 2) ≤ dayOfYear then count + 2
    else monthOfDay year dayOfYear count

/-- The date at a count of days from the first day of year 1. -/
def ofDays (days : Nat) : Date :=
  let year := yearOfDays days
  let dayOfYear := days - daysBeforeYear year
  let month := monthOfDay year dayOfYear 11
  ⟨year, month, dayOfYear - daysBeforeMonth year month + 1⟩

def chars (d : Date) : List Char :=
  padded 4 d.year ++ '-' :: padded 2 d.month ++ '-' :: padded 2 d.day

end Date

namespace TimeOfDay

/-- The time of the given numbers, if the day has it. -/
def of (hour minute second micro : Nat) : Except CalendarError TimeOfDay :=
  if 23 < hour then .error .hour
  else if 59 < minute then .error .minute
  else if 59 < second then .error .second
  else .ok ⟨hour, minute, second, micro⟩

/-- Hour, minute and second with colons, and a fraction of six digits if it is not zero. -/
def chars (t : TimeOfDay) : List Char :=
  padded 2 t.hour ++ ':' :: padded 2 t.minute ++ ':' :: padded 2 t.second ++
    if t.micro = 0 then [] else '.' :: padded 6 t.micro

end TimeOfDay

/-- A distance to universal time as a sign, hours and minutes. -/
def offsetChars (minutes : Int) : List Char :=
  (if minutes < 0 then '-' else '+') ::
    (padded 2 (minutes.natAbs / 60) ++ ':' :: padded 2 (minutes.natAbs % 60))

/-- Date and time with a character between them, and the offset if there is one. -/
def Timestamp.chars (separator : Char) (t : Timestamp) : List Char :=
  t.date.chars ++ separator :: t.time.chars ++
    match t.offset with
    | some minutes => offsetChars minutes
    | none => []

def TimeOfDay.toMicros (t : TimeOfDay) : Nat :=
  ((t.hour * 60 + t.minute) * 60 + t.second) * 1000000 + t.micro

/-- The microseconds from the start of year 1, by the clock that the timestamp was read from. -/
def Timestamp.localMicros (t : Timestamp) : Int :=
  (t.date.toDays * 86400000000 + t.time.toMicros : Nat)

/-- Whether two timestamps are the same moment. One with a distance to universal time never is the same
as one without. -/
def Timestamp.isSame (a b : Timestamp) : Bool :=
  match a.offset, b.offset with
  | none, none => a == b
  | some m, some n => a.localMicros - m * 60000000 == b.localMicros - n * 60000000
  | _, _ => false

/-- A reading of the clock: microseconds since the start of year 1, universal time. -/
structure Instant where
  micros : Nat
  deriving DecidableEq, Repr, Inhabited

namespace Instant

def microsPerDay : Nat := 86400000000

/-- The time of day at a count of microseconds after midnight. -/
def timeOfMicros (n : Nat) : TimeOfDay :=
  let seconds := n / 1000000
  ⟨seconds / 3600, seconds / 60 % 60, seconds % 60, n % 1000000⟩

def toTimestamp (i : Instant) : Timestamp :=
  ⟨Date.ofDays (i.micros / microsPerDay), timeOfMicros (i.micros % microsPerDay), some 0⟩

/-- The stored form of an instant. -/
def text (i : Instant) : String := String.ofList (i.toTimestamp.chars 'T')

end Instant
end Splice
