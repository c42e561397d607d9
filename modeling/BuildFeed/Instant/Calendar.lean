-- Dates and times of day read back. A date counts the days of all years and months before it, by the
-- rules for leap years and the lengths of the months, so every moment of the calendar is a number of
-- milliseconds from the start of 1970. A text is read part by part, each in the digits it has to have.
import BuildFeed.Instant
import BuildFeed.Number.Reader

namespace BuildFeed.Instant

/-! ## Years and months -/

/-- Whether a year has a leap day. -/
def isLeap (year : Int) : Bool := year % 4 = 0 && (year % 100 ≠ 0 || year % 400 = 0)

/-- How many leap days a year has. -/
def leapDay (year : Int) : Nat := if isLeap year then 1 else 0

/-- How long a year is, in days. -/
def yearLength (year : Int) : Nat := 365 + leapDay year

/-- How long a month is; the first is January. -/
def monthLength (year : Int) : Nat → Nat
  | 2 => 28 + leapDay year
  | 4 => 30
  | 6 => 30
  | 9 => 30
  | 11 => 30
  | _ => 31

/-- The days of the first `n` years from 1970 on. -/
def daysForwards : Nat → Nat
  | 0 => 0
  | n + 1 => daysForwards n + yearLength (1970 + n)

/-- The days of the last `n` years before 1970. -/
def daysBackwards : Nat → Nat
  | 0 => 0
  | n + 1 => daysBackwards n + yearLength (1969 - n)

/-- The days from the start of 1970 to the start of a year. -/
def yearStart (year : Int) : Int :=
  if 1970 ≤ year then daysForwards (year - 1970).toNat else -daysBackwards (1970 - year).toNat

/-- The days from the start of a year to the start of a month. -/
def monthStart (year : Int) : Nat → Nat
  | 0 => 0
  | 1 => 0
  | month + 2 => monthStart year (month + 1) + monthLength year (month + 1)

/-! ## Moments -/

/-- A date with a time of day. -/
structure Moment where
  year : Int
  month : Nat
  day : Nat
  hour : Nat
  minute : Nat
  second : Nat
  millisecond : Nat
  deriving DecidableEq

namespace Moment

/-- The date is one of the calendar, and the time one of the day. -/
structure Valid (m : Moment) : Prop where
  month_pos : 1 ≤ m.month
  month_le : m.month ≤ 12
  day_pos : 1 ≤ m.day
  day_le : m.day ≤ monthLength m.year m.month
  hour_lt : m.hour < 24
  minute_lt : m.minute < 60
  second_lt : m.second < 60
  millisecond_lt : m.millisecond < 1000

/-- The milliseconds from the start of 1970 to a moment. -/
def instant (m : Moment) : Instant :=
  let days : Int := yearStart m.year + monthStart m.year m.month + (m.day - 1)
  ((((days * 24 + m.hour) * 60 + m.minute) * 60 + m.second) * 1000 + m.millisecond)

/-! ## Reading -/

/-- A number of just so many digits at the start of a text, and what follows it. -/
def digits? (width : Nat) (cs : List Char) : Option (Nat × List Char) :=
  if width ≤ cs.length then (Number.ofDigits? 10 (cs.take width)).map (·, cs.drop width) else none

/-- A mark at the start of a text with a number of just so many digits, and what follows them. -/
def part? (mark : Char) (width : Nat) : List Char → Option (Nat × List Char)
  | c :: cs => if c = mark then digits? width cs else none
  | [] => none

/-- A year at the start of a text, and what follows it. One of four digits goes without a sign, every
other has a sign and six digits. -/
def year? (cs : List Char) : Option (Int × List Char) :=
  match part? '-' 6 cs, part? '+' 6 cs with
  | some (n, rest), _ => if 0 < n then some (-(n : Int), rest) else none
  | none, some (n, rest) => if 9999 < n then some ((n : Int), rest) else none
  | none, none => (digits? 4 cs).map (fun (n, rest) => ((n : Int), rest))

/-- The moment that a text spells. -/
def read? (cs : List Char) : Option Moment := do
  let (year, cs) ← year? cs
  let (month, cs) ← part? '-' 2 cs
  let (day, cs) ← part? '-' 2 cs
  let (hour, cs) ← part? 'T' 2 cs
  let (minute, cs) ← part? ':' 2 cs
  let (second, cs) ← part? ':' 2 cs
  let (millisecond, cs) ← part? '.' 3 cs
  if cs = ['Z'] then some { year, month, day, hour, minute, second, millisecond } else none

end Moment

end BuildFeed.Instant
