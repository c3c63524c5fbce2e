import Stencil.Number.Binary64

/-! Days of the Gregorian calendar, carried back to year 1, and their numbers: day 0 is the
first of January of year 1, a Monday. A moment is a day and a time of that day, to the
microsecond, and the offset from universal time if it is known. Offsets are in microseconds,
east positive, and stay below a day. -/
namespace Stencil

namespace Calendar

def isLeap (year : Nat) : Bool := year % 4 = 0 && (year % 100 ≠ 0 || year % 400 = 0)

def monthLengths (leap : Bool) : List Nat :=
  [31, if leap then 29 else 28, 31, 30, 31, 30, 31, 31, 30, 31, 30, 31]

def daysInMonth (year month : Nat) : Nat := (monthLengths (isLeap year)).getD (month - 1) 0

def lastYear : Nat := 9999

def IsDay (year month day : Nat) : Prop :=
  1 ≤ year ∧ year ≤ lastYear ∧ 1 ≤ month ∧ month ≤ 12 ∧ 1 ≤ day ∧ day ≤ daysInMonth year month

instance (year month day : Nat) : Decidable (IsDay year month day) :=
  inferInstanceAs (Decidable (_ ∧ _))

/-- The number of the first day of a year; years before year 1 count as well. -/
def yearStart (year : Int) : Int :=
  let past := year - 1
  past * 365 + past / 4 - past / 100 + past / 400

/-- Finds the month that holds a day of the year, both counted from 0. -/
def monthAt (day : Nat) : List Nat → Nat × Nat
  | [] => (0, day)
  | length :: rest =>
    if day < length then (0, day)
    else let (month, day) := monthAt (day - length) rest; (month + 1, day)

end Calendar

structure Date where
  year : Nat
  month : Nat
  day : Nat
  valid : Calendar.IsDay year month day
deriving DecidableEq

namespace Date

open Calendar

def of? (year month day : Nat) : Option Date :=
  if valid : IsDay year month day then some ⟨year, month, day, valid⟩ else none

def first : Date := ⟨1, 1, 1, by decide⟩
def last : Date := ⟨lastYear, 12, 31, by decide⟩

def number (date : Date) : Nat :=
  (yearStart date.year).toNat +
    ((monthLengths (isLeap date.year)).take (date.month - 1)).foldl (· + ·) 0 + (date.day - 1)

/-- The day of a number. A cycle of four centuries has 146097 days; the last day of a longer
century, and of a leap year, still belongs to it. -/
def ofNumber? (n : Nat) : Option Date :=
  let centuries := min 3 (n % 146097 / 36524)
  let inCentury := n % 146097 - 36524 * centuries
  let years := min 3 (inCentury % 1461 / 365)
  let year := 400 * (n / 146097) + 100 * centuries + 4 * (inCentury / 1461) + years + 1
  let (month, day) := monthAt (inCentury % 1461 - 365 * years) (monthLengths (isLeap year))
  of? year (month + 1) (day + 1)

/-- Monday of the first week, which is the week that holds the year's first Thursday. -/
def firstMonday (year : Nat) : Nat :=
  let start := (yearStart year).toNat
  let weekday := start % 7
  if 3 < weekday then start + 7 - weekday else start - weekday

/-- A year has a week 53 if it starts on a Thursday, or is leap and starts on a Wednesday. -/
def weeksIn (year : Nat) : Nat :=
  let weekday := (yearStart year).toNat % 7
  if weekday = 3 || (weekday = 2 && isLeap year) then 53 else 52

/-- The day of a week; days are counted from 1, which is Monday. -/
def ofWeek? (year week day : Nat) : Option Date :=
  if 1 ≤ year ∧ 1 ≤ week ∧ week ≤ weeksIn year ∧ 1 ≤ day ∧ day ≤ 7 then
    ofNumber? (firstMonday year + (week - 1) * 7 + (day - 1))
  else none

/-- Year, month and day in four, two and two digits. -/
def iso (date : Date) : Text :=
  Text.padZero 4 (Numeral.ofNat date.year) ++ '-' :: Text.padZero 2 (Numeral.ofNat date.month) ++
    '-' :: Text.padZero 2 (Numeral.ofNat date.day)

end Date

structure TimeOfDay where
  hour : Nat
  minute : Nat
  second : Nat
  microsecond : Nat
  valid : hour < 24 ∧ minute < 60 ∧ second < 60 ∧ microsecond < 1000000
deriving DecidableEq

def TimeOfDay.of? (hour minute second microsecond : Nat) : Option TimeOfDay :=
  if valid : hour < 24 ∧ minute < 60 ∧ second < 60 ∧ microsecond < 1000000 then
    some ⟨hour, minute, second, microsecond, valid⟩
  else none

def TimeOfDay.midnight : TimeOfDay := ⟨0, 0, 0, 0, by decide⟩
def TimeOfDay.last : TimeOfDay := ⟨23, 59, 59, 999999, by decide⟩

/-- The place of a number of seconds in a day. -/
def TimeOfDay.ofSeconds (seconds microsecond : Nat) : TimeOfDay :=
  ⟨seconds / 3600 % 24, seconds / 60 % 60, seconds % 60, microsecond % 1000000, by omega⟩

/-- A day and what a clock shows on it. Of a time that the clock shows twice the first is meant. -/
structure Moment where
  date : Date
  time : TimeOfDay
  offset? : Option Int
deriving DecidableEq

namespace Moment

def microsecondsPerDay : Int := 86400000000

/-- Microseconds since the first day, on the clock that the moment shows. -/
def shown (m : Moment) : Int :=
  ((m.date.number * 24 + m.time.hour) * 60 + m.time.minute) * 60000000 +
    m.time.second * 1000000 + m.time.microsecond

/-- Two moments with offsets are compared by universal time; with one that has none, only
another that has none can agree. -/
def sameInstant (a b : Moment) : Bool :=
  match a.offset?, b.offset? with
  | none, none => a.shown = b.shown
  | some x, some y => a.shown - x = b.shown - y
  | _, _ => false

def first : Moment := ⟨.first, .midnight, none⟩
def last : Moment := ⟨.last, .last, none⟩

end Moment

/-- A span of time in microseconds, of less than a thousand million days. -/
structure Span where
  micros : Int
  valid : -999999999 ≤ micros / 86400000000 ∧ micros / 86400000000 ≤ 999999999
deriving DecidableEq

namespace Span

def days (s : Span) : Int := s.micros / Moment.microsecondsPerDay
def seconds (s : Span) : Int := s.micros % Moment.microsecondsPerDay / 1000000
def microseconds (s : Span) : Int := s.micros % 1000000

def microsecond : Span := ⟨1, by decide⟩
def day : Span := ⟨86400000000, by decide⟩
def least : Span := ⟨-999999999 * 86400000000, by decide⟩
def greatest : Span := ⟨1000000000 * 86400000000 - 1, by decide⟩

end Span

namespace Moment

/-- Month, day and year without leading zeros. -/
def short (m : Moment) : Text :=
  Numeral.ofNat m.date.month ++ '/' :: Numeral.ofNat m.date.day ++ '/' :: Numeral.ofNat m.date.year

/-- Noon and midnight are twelve. -/
def hourOnDial (hour : Nat) : Nat := if hour % 12 = 0 then 12 else hour % 12

def dial (t : TimeOfDay) : Text :=
  Numeral.ofNat (hourOnDial t.hour) ++ ':' :: Text.padZero 2 (Numeral.ofNat t.minute) ++
    ':' :: Text.padZero 2 (Numeral.ofNat t.second) ++
    [' ', if t.hour < 12 then 'A' else 'P', 'M']

def long (m : Moment) : Text := m.short ++ ',' :: ' ' :: dial m.time

end Moment

namespace Epoch

/-- Why a count of seconds is no moment. -/
inductive Refusal
  | undefined        -- not a number
  | wide             -- beyond the range of signed 64-bit counts
  | clock            -- a year that the clock's 32-bit year cannot hold
  | calendar         -- a year outside the calendar
deriving DecidableEq

/-- The number of the first day of 1970. -/
def firstDay : Int := 719162

/-- Microseconds, the fraction scaled in binary floating point and then rounded. -/
def microseconds? : Binary64 → Option Int
  | .finite negative significand exponent =>
    let (num, den) := Binary64.ratio significand exponent
    let micros :=
      match Binary64.ofRatio false (num % den * 1000000) den with
      | .finite _ significand exponent =>
        let (num, den) := Binary64.ratio significand exponent
        Binary64.roundDiv num den
      | _ => 0
    let total : Int := num / den * 1000000 + micros
    some (if negative then -total else total)
  | _ => none

/-- The first day of year 1 is refused with the years before it: the day before a moment has to
be in the calendar too. -/
def moment (micros : Int) : Except Refusal Moment :=
  let seconds := micros / 1000000
  let day := seconds / 86400 + firstDay
  if seconds < -Int.pow 2 63 ∨ Int.pow 2 63 < seconds then .error .wide
  else if day < Calendar.yearStart (1900 - Int.pow 2 31) ∨
      Calendar.yearStart (1900 + Int.pow 2 31) ≤ day then
    .error .clock
  else if day < 1 then .error .calendar
  else
    match Date.ofNumber? day.toNat with
    | some date =>
      .ok ⟨date, .ofSeconds (seconds % 86400).toNat (micros % 1000000).toNat, none⟩
    | none => .error .calendar

/-- The moment so many seconds after the start of 1970, in universal time. -/
def ofSeconds (seconds : Binary64) : Except Refusal Moment :=
  match seconds with
  | .nan => .error .undefined
  | _ =>
    match microseconds? seconds with
    | some micros => moment micros
    | none => .error .wide

end Epoch

end Stencil
