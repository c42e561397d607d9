-- The calendar is right: the date of a day is one of the calendar, and the days of all years and months
-- before it are as many as lie between it and the start of 1970. The date is worked out in years that
-- start in March, which have their leap day last, so only January and February are in the next year.
import Mathlib.Tactic.IntervalCases
import BuildFeed.Instant.Calendar

namespace BuildFeed.Instant

/-! ## Leap days -/

/-- The leap days of the years up to this one, counted from year 1 on. -/
def leaps (year : Int) : Int := year / 4 - year / 100 + year / 400

theorem isLeap_iff (year : Int) :
    isLeap year = true ↔ year % 4 = 0 ∧ (year % 100 ≠ 0 ∨ year % 400 = 0) := by
  simp [isLeap]

theorem leapDay_eq (year : Int) : (leapDay year : Int) = leaps year - leaps (year - 1) := by
  unfold leapDay leaps
  by_cases h : isLeap year = true
  · rw [if_pos h]
    rw [isLeap_iff] at h
    omega
  · rw [if_neg h]
    rw [isLeap_iff] at h
    omega

theorem daysForwards_eq (n : Nat) : (daysForwards n : Int) = 365 * n + leaps (1969 + n) - 477 := by
  induction n with
  | zero => decide
  | succ n ih =>
    have hleap := leapDay_eq (1970 + n)
    have hbefore : (1970 + n : Int) - 1 = 1969 + n := by omega
    have hyear : (1969 + (n + 1 : Nat) : Int) = 1970 + n := by omega
    rw [hbefore] at hleap
    rw [daysForwards, yearLength, hyear]
    omega

theorem daysBackwards_eq (n : Nat) : (daysBackwards n : Int) = 365 * n - leaps (1969 - n) + 477 := by
  induction n with
  | zero => decide
  | succ n ih =>
    have hleap := leapDay_eq (1969 - n)
    have hyear : (1969 - (n + 1 : Nat) : Int) = 1969 - n - 1 := by omega
    rw [daysBackwards, yearLength, hyear]
    omega

/-- The days before a year, counted at once. -/
theorem yearStart_eq (year : Int) : yearStart year = 365 * (year - 1970) + leaps (year - 1) - 477 := by
  unfold yearStart
  split
  · have hcount : ((year - 1970).toNat : Int) = year - 1970 := by omega
    have hyear : 1969 + (year - 1970) = year - 1 := by omega
    rw [daysForwards_eq, hcount, hyear]
  · have hcount : ((1970 - year).toNat : Int) = 1970 - year := by omega
    have hyear : 1969 - (1970 - year) = year - 1 := by omega
    rw [daysBackwards_eq, hcount, hyear]
    omega

/-! ## Years from March to February -/

/-- The year that a day falls into, if years start in March. -/
def marchYear (days : Int) : Int :=
  let n := days + daysTo1970
  let inSpan := (n % 146097).toNat
  let century := min (inSpan / 36524) 3
  let inCentury := inSpan - 36524 * century
  400 * (n / 146097) +
    (100 * century + 4 * (inCentury / 1461) + min (inCentury % 1461 / 365) 3 : Nat)

/-- The place of a day in such a year, counted from zero. -/
def marchDay (days : Int) : Nat :=
  let inSpan := ((days + daysTo1970) % 146097).toNat
  let inCentury := inSpan - 36524 * min (inSpan / 36524) 3
  inCentury % 1461 - 365 * min (inCentury % 1461 / 365) 3

/-- The year that a month of such a year belongs to. -/
def yearOf (year : Int) (m : Nat) : Int := year + if 10 ≤ m then 1 else 0

/-- The number of a month of such a year, January being the first. -/
def monthOf (m : Nat) : Nat := (m + 2) % 12 + 1

theorem date_eq (days : Int) :
    date days =
      { year := yearOf (marchYear days) (monthAndDay monthLengths (marchDay days)).1
        month := monthOf (monthAndDay monthLengths (marchDay days)).1
        day := (monthAndDay monthLengths (marchDay days)).2 + 1 } := by
  unfold date marchYear marchDay yearOf monthOf
  generalize monthLengths = lengths
  rfl

/-- A length in parts of `d`, of which the last may be longer by one: in every other part there is less
than `d` left, and in the last one `d` at most. -/
theorem last_part_of_le {n d m : Nat} (hd : 0 < d) (h : n ≤ d * (m + 1)) :
    n = d * min (n / d) m + (n - d * min (n / d) m) ∧
      (n - d * min (n / d) m < d ∨ min (n / d) m = m ∧ n - d * min (n / d) m = d) := by
  by_cases hle : n / d ≤ m
  · have hparts := Nat.div_add_mod n d
    have hrest := Nat.mod_lt n hd
    rw [Nat.min_eq_left hle]
    omega
  · have hlast := (Nat.le_div_iff_mul_le hd).mp (Nat.lt_of_not_le hle)
    rw [Nat.mul_comm, Nat.mul_succ] at hlast
    rw [Nat.mul_succ] at h
    rw [Nat.min_eq_right (Nat.le_of_not_le hle)]
    omega

/-- The leap days of a year that is given by its span of 400 years and its place there. -/
theorem leaps_of_parts {span : Int} {century four single : Nat} (hcentury : century ≤ 3)
    (hfour : four ≤ 24) (hsingle : single ≤ 3) :
    leaps (400 * span + (100 * century + 4 * four + single : Nat)) =
      97 * span + (24 * century + four : Nat) := by
  unfold leaps
  omega

/-- A day is as many days after the first of March of year 0 as the years from March to February
before it have, and its place in its own. Only a year that ends with a leap day has a last place. -/
theorem marchYear_marchDay (days : Int) :
    days = 365 * marchYear days + leaps (marchYear days) + marchDay days - daysTo1970 ∧
      marchDay days ≤ 365 ∧ (marchDay days = 365 → isLeap (marchYear days + 1) = true) := by
  have hspan : (days + daysTo1970) =
      146097 * ((days + daysTo1970) / 146097) + ((days + daysTo1970) % 146097).toNat := by omega
  have hbound : ((days + daysTo1970) % 146097).toNat < 146097 := by omega
  unfold marchYear marchDay
  simp only [isLeap_iff]
  generalize (days + daysTo1970) / 146097 = span at hspan ⊢
  generalize ((days + daysTo1970) % 146097).toNat = inSpan at hspan hbound ⊢
  -- the last century of a span has a day more than the others, and so has the last of four years
  have hcentury : min (inSpan / 36524) 3 ≤ 3 := Nat.min_le_right _ _
  obtain ⟨hinSpan, hlastCentury⟩ := last_part_of_le (n := inSpan) (d := 36524) (m := 3) (by decide)
    (by omega)
  generalize inSpan - 36524 * min (inSpan / 36524) 3 = inCentury at hinSpan hlastCentury ⊢
  generalize min (inSpan / 36524) 3 = century at hcentury hinSpan hlastCentury ⊢
  obtain ⟨hfour, hinCentury, hinFour⟩ : inCentury / 1461 ≤ 24 ∧
      inCentury = 1461 * (inCentury / 1461) + inCentury % 1461 ∧ inCentury % 1461 ≤ 365 * 4 := by
    omega
  generalize inCentury / 1461 = four at hfour hinCentury ⊢
  generalize inCentury % 1461 = inFour at hinCentury hinFour ⊢
  have hsingle : min (inFour / 365) 3 ≤ 3 := Nat.min_le_right _ _
  obtain ⟨hinYear, hlastYear⟩ := last_part_of_le (m := 3) (by decide) hinFour
  generalize inFour - 365 * min (inFour / 365) 3 = inYear at hinYear hlastYear ⊢
  generalize min (inFour / 365) 3 = single at hsingle hinYear hlastYear ⊢
  rw [leaps_of_parts hcentury hfour hsingle]
  refine ⟨by omega, by omega, ?_⟩
  intro hlast
  omega

/-! ## Months -/

/-- A day of months with these lengths lies in one of them. -/
theorem monthAndDay_parts {lengths : List Nat} {d : Nat} (h : d < lengths.sum) :
    d = (lengths.take (monthAndDay lengths d).1).sum + (monthAndDay lengths d).2 ∧
      ∃ length, lengths[(monthAndDay lengths d).1]? = some length ∧
        (monthAndDay lengths d).2 < length := by
  induction lengths generalizing d with
  | nil => cases h
  | cons length rest ih =>
    unfold monthAndDay
    split
    · rename_i hlt
      exact ⟨by simp, length, by simp, hlt⟩
    · rename_i hge
      rw [List.sum_cons] at h
      obtain ⟨hsum, length', hat, hlt⟩ := ih (d := d - length) (by omega)
      simp only [List.take_succ_cons, List.sum_cons, List.getElem?_cons_succ]
      exact ⟨by omega, length', hat, hlt⟩

/-- From March on the months of the calendar follow each other as they do here. -/
theorem monthStart_monthOf_of_lt (year : Int) {m : Nat} (h : m < 10) :
    monthStart year (monthOf m) = 59 + leapDay year + (monthLengths.take m).sum := by
  interval_cases m <;>
    simp [monthOf, monthStart, monthLength, monthLengths] <;> omega

/-- January and February stand at the end here. -/
theorem monthStart_monthOf_of_le (year : Int) {m : Nat} (h : 10 ≤ m) (hm : m < 12) :
    monthStart year (monthOf m) + 306 = (monthLengths.take m).sum := by
  interval_cases m <;> simp [monthOf, monthStart, monthLength, monthLengths]

theorem monthLength_le (year : Int) (month : Nat) : monthLength year month ≤ 31 := by
  unfold monthLength leapDay
  split
  · split <;> decide
  all_goals decide

theorem length_le_monthLength (year : Int) {m length : Nat} (h : monthLengths[m]? = some length) :
    m < 12 ∧ (length = monthLength year (monthOf m) ∨
      m = 11 ∧ length = 29 ∧ monthLength year (monthOf m) = 28 + leapDay year) := by
  have hm : m < 12 := (List.getElem?_eq_some_iff.mp h).1
  refine ⟨hm, ?_⟩
  interval_cases m <;> cases h <;> simp [monthOf, monthLength]

/-- The start of a month, whichever way years are counted. -/
theorem start_of_month (year : Int) {m : Nat} (hm : m < 12) :
    yearStart (yearOf year m) + monthStart (yearOf year m) (monthOf m) =
      365 * year + leaps year - daysTo1970 + (monthLengths.take m).sum := by
  unfold yearOf daysTo1970
  rw [yearStart_eq]
  by_cases h : 10 ≤ m
  · have hstart := monthStart_monthOf_of_le (year + 1) h hm
    have hyear : year + 1 - 1 = year := by omega
    rw [if_pos h, hyear]
    omega
  · have hstart := monthStart_monthOf_of_lt year (Nat.lt_of_not_le h)
    have hleap := leapDay_eq year
    rw [if_neg h, Int.add_zero]
    omega

/-! ## Dates -/

/-- The date of a day is a day of its month, and lies as far from the start of 1970 as the day does. -/
theorem date_days (days : Int) :
    1 ≤ (date days).month ∧ (date days).month ≤ 12 ∧ 1 ≤ (date days).day ∧
      (date days).day ≤ monthLength (date days).year (date days).month ∧
      yearStart (date days).year + monthStart (date days).year (date days).month +
        ((date days).day - 1) = days := by
  obtain ⟨hdays, hle, hlast⟩ := marchYear_marchDay days
  have hin : marchDay days < monthLengths.sum := Nat.lt_succ_of_le hle
  obtain ⟨hparts, length, hat, hlt⟩ := monthAndDay_parts hin
  rw [date_eq]
  simp only
  generalize (monthAndDay monthLengths (marchDay days)).1 = m at hparts hat ⊢
  generalize (monthAndDay monthLengths (marchDay days)).2 = d at hparts hlt ⊢
  obtain ⟨hm, hlength⟩ := length_le_monthLength (yearOf (marchYear days) m) hat
  have hstart := start_of_month (marchYear days) hm
  refine ⟨by unfold monthOf; omega, by unfold monthOf; omega, Nat.succ_pos d, ?_, by omega⟩
  rcases hlength with rfl | ⟨rfl, rfl, hfebruary⟩
  · exact hlt
  · -- the leap day is the last day that a year can have here
    have htake : (monthLengths.take 11).sum = 337 := by decide
    rw [hfebruary]
    by_cases hleap : marchDay days = 365
    · have hleap := hlast hleap
      have hyear : yearOf (marchYear days) 11 = marchYear days + 1 := rfl
      rw [hyear, leapDay, if_pos hleap]
      omega
    · omega

/-! ## Moments -/

/-- The date and the time of day of a moment. -/
def moment (t : Instant) : Moment :=
  let day := date (t / dayLength)
  let ms := (t % dayLength).toNat
  { year := day.year
    month := day.month
    day := day.day
    hour := ms / 3600000
    minute := ms / 60000 % 60
    second := ms / 1000 % 60
    millisecond := ms % 1000 }

theorem valid_moment (t : Instant) : (moment t).Valid := by
  obtain ⟨hmonth, hmonth', hday, hday', -⟩ := date_days (t / dayLength)
  have hms : (t % dayLength).toNat < 86400000 := by
    unfold dayLength
    omega
  exact
    { month_pos := hmonth
      month_le := hmonth'
      day_pos := hday
      day_le := hday'
      hour_lt := (Nat.div_lt_iff_lt_mul (by decide)).mpr hms
      minute_lt := Nat.mod_lt _ (by decide)
      second_lt := Nat.mod_lt _ (by decide)
      millisecond_lt := Nat.mod_lt _ (by decide) }

/-- The milliseconds of a number of days and of the parts of a time of day. -/
theorem time_parts (days : Int) (ms : Nat) :
    (((days * 24 + (ms / 3600000 : Nat)) * 60 + (ms / 60000 % 60 : Nat)) * 60 +
      (ms / 1000 % 60 : Nat)) * 1000 + (ms % 1000 : Nat) = dayLength * days + ms := by
  unfold dayLength
  omega

/-- The milliseconds to the moment of an instant are the instant. -/
theorem instant_moment (t : Instant) : (moment t).instant = t := by
  obtain ⟨-, -, -, -, hdays⟩ := date_days (t / dayLength)
  have hrest : 0 ≤ t % dayLength := Int.emod_nonneg t (by decide)
  unfold moment Moment.instant
  simp only
  rw [hdays, time_parts, Int.toNat_of_nonneg hrest]
  exact Int.mul_ediv_add_emod t dayLength

end BuildFeed.Instant
