/-!
# Dates and instants

The Gregorian calendar, extended to all years, and points in time as seconds since 1970.

* `Date.toDays`, `Date.ofDays` — dates and days since 1970-01-01.
* `Date.weekday`, `Date.ordinal`, `Date.isoWeek` — the place of a day in its week and year.
* `Instant` — a point in time; `Instant.inRange` says which ones have a date.
-/

namespace FlowEngine.Time

/-- A day of the calendar. -/
structure Date where
  year : Int
  month : Nat
  day : Nat
  deriving DecidableEq, Inhabited

/-- Whether a year has 366 days. -/
def isLeapYear (year : Int) : Bool :=
  year % 4 == 0 && (year % 100 != 0 || year % 400 == 0)

/-- The number of days of a month. -/
def daysInMonth (year : Int) (month : Nat) : Nat :=
  match month with
  | 2 => if isLeapYear year then 29 else 28
  | 4 | 6 | 9 | 11 => 30
  | _ => 31

namespace Date

/-- Whether the month exists and has the day. -/
def isValid (d : Date) : Bool :=
  decide (1 ≤ d.month) && decide (d.month ≤ 12) && decide (1 ≤ d.day) &&
    decide (d.day ≤ daysInMonth d.year d.month)

/-- Days since 1970-01-01. Years are counted from March, so that a leap day is the last day. -/
def toDays (d : Date) : Int :=
  let y := if d.month ≤ 2 then d.year - 1 else d.year
  let m := (d.month + 9) % 12
  let dayOfYear := (153 * m + 2) / 5 + d.day - 1
  365 * y + y / 4 - y / 100 + y / 400 + dayOfYear - 719468

/-- The date so many days after 1970-01-01. The days are counted within eras of 400 years. -/
def ofDays (days : Int) : Date :=
  let z := days + 719468
  let era := z / 146097
  let dayOfEra := (z % 146097).toNat
  let yearOfEra :=
    (dayOfEra - dayOfEra / 1460 + dayOfEra / 36524 - dayOfEra / 146096) / 365
  let dayOfYear := dayOfEra - (365 * yearOfEra + yearOfEra / 4 - yearOfEra / 100)
  let m := (5 * dayOfYear + 2) / 153
  let day := dayOfYear - (153 * m + 2) / 5 + 1
  let month := if m < 10 then m + 3 else m - 9
  ⟨era * 400 + yearOfEra + (if month ≤ 2 then 1 else 0), month, day⟩

/-- The day of the week, counted from Sunday. -/
def weekday (d : Date) : Nat := ((d.toDays + 4) % 7).toNat

/-- The day of the week, counted from Monday. -/
def weekdayFromMonday (d : Date) : Nat := (d.weekday + 6) % 7

/-- The day of the year, from 1. -/
def ordinal (d : Date) : Nat := (d.toDays - (Date.mk d.year 1 1).toDays + 1).toNat

/-- The number of weeks that have begun in the year, with weeks that begin on Sunday. -/
def weeksFromSunday (d : Date) : Nat := (d.ordinal + 6 - d.weekday) / 7

/-- The number of weeks that have begun in the year, with weeks that begin on Monday. -/
def weeksFromMonday (d : Date) : Nat := (d.ordinal + 6 - d.weekdayFromMonday) / 7

/-- The year and number of the ISO week: weeks begin on Monday and belong to the year that holds
their Thursday. -/
def isoWeek (d : Date) : Int × Nat :=
  let thursday := ofDays (d.toDays - d.weekdayFromMonday + 3)
  (thursday.year, (thursday.ordinal - 1) / 7 + 1)

/-- The quarter of the year, from 1. -/
def quarter (d : Date) : Nat := (d.month - 1) / 3 + 1

end Date

/-- A point in time: seconds since 1970-01-01T00:00:00Z and nanoseconds. During a leap second the
nanoseconds reach beyond one second. -/
structure Instant where
  seconds : Int
  nanos : Nat
  deriving DecidableEq, Inhabited

namespace Instant

/-- The first second that has a date. -/
def minSeconds : Int := (Date.mk (-262143) 1 1).toDays * 86400

/-- The last second that has a date. -/
def maxSeconds : Int := (Date.mk 262142 12 31).toDays * 86400 + 86399

/-- Whether a second has a date. -/
def inRange (seconds : Int) : Bool :=
  decide (minSeconds ≤ seconds) && decide (seconds ≤ maxSeconds)

/-- The date of an instant. -/
def date (t : Instant) : Date := Date.ofDays (t.seconds / 86400)

/-- Seconds since midnight. -/
def secondOfDay (t : Instant) : Nat := (t.seconds % 86400).toNat

/-- The hour. -/
def hour (t : Instant) : Nat := t.secondOfDay / 3600

/-- The minute. -/
def minute (t : Instant) : Nat := t.secondOfDay / 60 % 60

/-- The second, 60 during a leap second. -/
def second (t : Instant) : Nat := t.secondOfDay % 60 + t.nanos / 1000000000

/-- The nanoseconds within the second. -/
def nanosecond (t : Instant) : Nat := t.nanos % 1000000000

end Instant

end FlowEngine.Time
