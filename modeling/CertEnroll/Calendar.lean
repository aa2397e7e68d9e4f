/-!
# Calendar — dates, times of day and seconds since the start of 1970

Years and months are found by walking over their lengths: `locate` takes the lengths of consecutive
periods and finds the one in which a day falls.
-/

namespace CertEnroll.Calendar

/-- The first year. -/
def firstYear : Nat := 1970

/-- The last year. -/
def lastYear : Nat := 9999

/-- Whether a year has a leap day. -/
def isLeap (y : Nat) : Bool :=
  y % 4 = 0 && (y % 100 ≠ 0 || y % 400 = 0)

/-- The number of days of a year. -/
def yearLength (y : Nat) : Nat :=
  if isLeap y then 366 else 365

/-- The number of days of a month, counted from one. -/
def monthLength (y m : Nat) : Nat :=
  if m = 2 then if isLeap y then 29 else 28
  else if m = 4 ∨ m = 6 ∨ m = 9 ∨ m = 11 then 30
  else 31

/-- The total length of `k` consecutive periods. -/
def total (length : Nat → Nat) (start : Nat) : Nat → Nat
  | 0 => 0
  | k + 1 => length start + total length (start + 1) k

/-- The period in which day `d` falls, among at most `k` after `start`, and the day within it. -/
def locate (length : Nat → Nat) : Nat → Nat → Nat → Nat × Nat
  | 0, start, d => (start, d)
  | k + 1, start, d =>
    if d < length start then (start, d) else locate length k (start + 1) (d - length start)

/-- Whether numbers are a date and a time of day. -/
def isValid (year month day hour minute second : Nat) : Bool :=
  firstYear ≤ year && year ≤ lastYear && 1 ≤ month && month ≤ 12 &&
    1 ≤ day && day ≤ monthLength year month && hour ≤ 23 && minute ≤ 59 && second ≤ 59

/-- A date and a time of day. -/
structure DateTime where
  year : Nat
  month : Nat
  day : Nat
  hour : Nat
  minute : Nat
  second : Nat
  /-- The date exists, and so does the time of day. -/
  valid : isValid year month day hour minute second = true
  deriving DecidableEq

namespace DateTime

/-- The date and time with given parts. -/
def ofParts? (year month day hour minute second : Nat) : Option DateTime :=
  if h : isValid year month day hour minute second = true then
    some ⟨year, month, day, hour, minute, second, h⟩
  else none

/-- The days from the start of 1970 to the date. -/
def days (t : DateTime) : Nat :=
  total yearLength firstYear (t.year - firstYear) +
    total (monthLength t.year) 1 (t.month - 1) + (t.day - 1)

/-- The seconds from the start of 1970 to the time. -/
def toSeconds (t : DateTime) : Nat :=
  t.days * 86400 + t.hour * 3600 + t.minute * 60 + t.second

/-- The time a number of seconds after the start of 1970. -/
def ofSeconds? (s : Nat) : Option DateTime :=
  let (year, rest) := locate yearLength (lastYear - firstYear + 1) firstYear (s / 86400)
  let (month, day) := locate (monthLength year) 12 1 rest
  let t := s % 86400
  ofParts? year month (day + 1) (t / 3600) (t / 60 % 60) (t % 60)

end DateTime

/-! ### Instants -/

/-- A reading of a clock: seconds since the start of 1970, and nanoseconds below one second. -/
structure Instant where
  seconds : Int
  nanos : Nat
  deriving DecidableEq, Repr

/-- The last second that has a date. -/
def lastSecond : Nat := 253402300799

/-- The date and time of an instant, with fractions of a second left out.  Instants before 1970 and
after the start of the last second have none. -/
def Instant.dateTime? (i : Instant) : Option DateTime :=
  if i.seconds < 0 ∨ (lastSecond : Int) < i.seconds ∨ (i.seconds = lastSecond ∧ 0 < i.nanos) then none
  else DateTime.ofSeconds? i.seconds.toNat

/-- An instant some seconds later. -/
def Instant.later (i : Instant) (seconds : Nat) : Instant :=
  { i with seconds := i.seconds + seconds }

end CertEnroll.Calendar
