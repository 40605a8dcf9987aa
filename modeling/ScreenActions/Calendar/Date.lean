/-! Dates of the proleptic Gregorian calendar and times of day. -/

namespace ScreenActions

def isLeapYear (year : Int) : Bool :=
  year % 4 == 0 && (year % 100 != 0 || year % 400 == 0)

def daysInMonth (year : Int) (month : Nat) : Nat :=
  if month = 2 then (if isLeapYear year then 29 else 28)
  else if month = 4 || month = 6 || month = 9 || month = 11 then 30
  else 31

/-- A day between the first of year -262143 and the last of year 262142. -/
structure Date where
  year : Int
  month : Nat
  day : Nat
  year_ge : -262143 ≤ year
  year_le : year ≤ 262142
  month_mem : 1 ≤ month ∧ month ≤ 12
  day_mem : 1 ≤ day ∧ day ≤ daysInMonth year month
  deriving DecidableEq, Repr

namespace Date

def make? (year : Int) (month day : Nat) : Option Date :=
  if h : -262143 ≤ year ∧ year ≤ 262142 ∧ (1 ≤ month ∧ month ≤ 12) ∧
      (1 ≤ day ∧ day ≤ daysInMonth year month) then
    some ⟨year, month, day, h.1, h.2.1, h.2.2.1, h.2.2.2⟩
  else none

/-- Days since the first of March of year 0, in years that begin in March. -/
def dayNumber (d : Date) : Int :=
  let y := if d.month ≤ 2 then d.year - 1 else d.year
  let m : Int := if d.month ≤ 2 then d.month + 9 else d.month - 3
  365 * y + y / 4 - y / 100 + y / 400 + (153 * m + 2) / 5 + (d.day - 1)

/-- Day number of the first of January 1970. -/
def epoch : Int := 719468

def ofDayNumber? (n : Int) : Option Date :=
  let era := n / 146097
  let dayOfEra := n % 146097
  let yearOfEra :=
    (dayOfEra - dayOfEra / 1460 + dayOfEra / 36524 - dayOfEra / 146096) / 365
  let dayOfYear := dayOfEra - (365 * yearOfEra + yearOfEra / 4 - yearOfEra / 100)
  let m := (5 * dayOfYear + 2) / 153
  let day := dayOfYear - (153 * m + 2) / 5 + 1
  let month := if m < 10 then m + 3 else m - 9
  let year := yearOfEra + 400 * era + (if month ≤ 2 then 1 else 0)
  make? year month.toNat day.toNat

end Date

/-- Seconds since midnight and nanoseconds; a leap second is the last of a minute, with 10^9
nanoseconds or more. -/
structure Time where
  seconds : Nat
  nanos : Nat
  seconds_lt : seconds < 86400
  nanos_lt : nanos < 2000000000
  leap : 1000000000 ≤ nanos → seconds % 60 = 59
  deriving DecidableEq, Repr

namespace Time

def make? (seconds nanos : Nat) : Option Time :=
  if h : seconds < 86400 ∧ nanos < 2000000000 ∧ (1000000000 ≤ nanos → seconds % 60 = 59) then
    some ⟨seconds, nanos, h.1, h.2.1, h.2.2⟩
  else none

def midnight : Time := ⟨0, 0, by decide, by decide, by decide⟩

def hour (t : Time) : Nat := t.seconds / 3600

def minute (t : Time) : Nat := t.seconds / 60 % 60

/-- The second as it is written, 60 for a leap second. -/
def second (t : Time) : Nat := t.seconds % 60 + t.nanos / 1000000000

end Time

/-- A point in time without a zone. -/
structure Timestamp where
  date : Date
  time : Time
  deriving DecidableEq, Repr

namespace Timestamp

def atMidnight (d : Date) : Timestamp := ⟨d, Time.midnight⟩

/-- The point `seconds` later; a leap second stays one. -/
def shift? (t : Timestamp) (seconds : Int) : Option Timestamp :=
  let total := (t.time.seconds : Int) + seconds
  (Date.ofDayNumber? (t.date.dayNumber + total / 86400)).bind fun d =>
    (Time.make? (total % 86400).toNat t.time.nanos).map fun time => ⟨d, time⟩

/-- The point `n` milliseconds after the start of 1970. -/
def ofMillis? (n : Int) : Option Timestamp :=
  let seconds := n / 1000
  (Date.ofDayNumber? (Date.epoch + seconds / 86400)).bind fun d =>
    (Time.make? (seconds % 86400).toNat ((n % 1000).toNat * 1000000)).map fun time => ⟨d, time⟩

end Timestamp
end ScreenActions
