-- The calendar: a count of milliseconds from the start of 1970 as a date and a time of day in
-- UTC, by the Gregorian rules carried on in both directions. Years from 0 to 9999 have four
-- digits, all others a sign and six.
import BuildFeed.Number.Text

namespace BuildFeed

/-- A moment, in milliseconds from the start of 1970. -/
abbrev Instant := Int

namespace Instant

/-- How far from the start of 1970 the calendar reaches, in milliseconds. -/
def reach : Nat := 8640000000000000

/-- The moment that a clock shows, if the calendar reaches it. A part of a millisecond is
dropped. -/
def ofClock? : Number → Option Instant
  | .finite steps =>
    if steps.natAbs ≤ reach * Number.unit then (Number.finite steps).truncated? else none
  | _ => none

/-! ## Dates -/

/-- A day of the calendar. -/
structure Date where
  year : Int
  month : Nat
  day : Nat
  deriving DecidableEq

/-- How long the months are, from March on. A year that ends with February has its leap day
last. -/
def monthLengths : List Nat := [31, 30, 31, 30, 31, 31, 30, 31, 30, 31, 31, 29]

/-- The month that a day falls into, and its place there, both counted from zero. -/
def monthAndDay : List Nat → Nat → Nat × Nat
  | [], d => (0, d)
  | length :: rest, d =>
    if d < length then (0, d)
    else
      let (m, r) := monthAndDay rest (d - length)
      (m + 1, r)

/-- The days from the first of March of year 0 to the start of 1970. -/
def daysTo1970 : Nat := 719468

/-- The date that lies `days` after the start of 1970: first the span of 400 years, then the
century in it, the four years in that, the year and the month, each taken as late as the day
allows. -/
def date (days : Int) : Date :=
  let n := days + daysTo1970
  let span := n / 146097
  let inSpan := (n % 146097).toNat
  let century := min (inSpan / 36524) 3
  let inCentury := inSpan - 36524 * century
  let four := inCentury / 1461
  let inFour := inCentury % 1461
  let single := min (inFour / 365) 3
  let (m, d) := monthAndDay monthLengths (inFour - 365 * single)
  { year := 400 * span + (100 * century + 4 * four + single : Nat) + (if 10 ≤ m then 1 else 0)
    month := (m + 2) % 12 + 1
    day := d + 1 }

/-! ## Text -/

/-- A number with zeros in front, `width` digits at least. -/
def padded (width n : Nat) : List Char :=
  let ds := Number.digitChars n
  List.replicate (width - ds.length) '0' ++ ds

/-- A year: four digits from 0 to 9999, else a sign and six. -/
def yearChars (year : Int) : List Char :=
  if 0 ≤ year ∧ year ≤ 9999 then padded 4 year.toNat
  else (if year < 0 then '-' else '+') :: padded 6 year.natAbs

/-- A day as year, month and day. -/
def Date.chars (d : Date) : List Char :=
  yearChars d.year ++ '-' :: padded 2 d.month ++ '-' :: padded 2 d.day

/-- How many milliseconds a day has. -/
def dayLength : Nat := 86400000

/-- The time of day that lies `ms` milliseconds into a day. -/
def timeChars (ms : Nat) : List Char :=
  padded 2 (ms / 3600000) ++ ':' :: padded 2 (ms / 60000 % 60) ++
    ':' :: padded 2 (ms / 1000 % 60) ++ '.' :: padded 3 (ms % 1000)

/-- A moment as date and time in UTC. -/
def chars (t : Instant) : List Char :=
  (date (t / dayLength)).chars ++ 'T' :: timeChars (t % dayLength).toNat ++ ['Z']

end Instant

end BuildFeed
