-- The text of a moment is read as the moment. Each part of it has just as many digits as it is to have,
-- as far as the calendar reaches, so no two moments have one text.
import BuildFeed.Proofs.Instant.Calendar
import BuildFeed.Proofs.Number.Digits

namespace BuildFeed.Instant

open Moment (digits? part? year? read?)

/-! ## Parts -/

theorem length_padded {width n : Nat} (hwidth : 0 < width) (h : n < 10 ^ width) :
    (padded width n).length = width := by
  have hle : (Number.digitChars n).length ≤ width :=
    (Nat.length_toDigits_le_iff (by decide) hwidth).mpr h
  unfold padded
  rw [List.length_append, List.length_replicate]
  omega

theorem isDigit_of_mem_padded {width n : Nat} {c : Char} (h : c ∈ padded width n) :
    c.isDigit = true := by
  rcases List.mem_append.mp h with hzero | hdigit
  · exact Number.isDigit_of_mem_zeros c hzero
  · exact Number.isDigit_of_mem_digitChars hdigit

theorem digits?_padded {width n : Nat} (hwidth : 0 < width) (h : n < 10 ^ width)
    (rest : List Char) : digits? width (padded width n ++ rest) = some (n, rest) := by
  have hlength := length_padded hwidth h
  have hread : Number.ofDigits? 10 (padded width n) = some n :=
    Number.ofDigits?_zeros_digitChars _ n
  unfold digits?
  rw [if_pos (by rw [List.length_append]; omega), List.take_left' hlength, List.drop_left' hlength,
    hread]
  rfl

theorem part?_padded (mark : Char) {width n : Nat} (hwidth : 0 < width) (h : n < 10 ^ width)
    (rest : List Char) : part? mark width (mark :: (padded width n ++ rest)) = some (n, rest) := by
  rw [part?, if_pos rfl, digits?_padded hwidth h]

/-- Behind digits there is no part that starts with a mark. -/
theorem part?_of_isDigit {mark : Char} (hmark : mark.isDigit = false) {width n : Nat}
    (hwidth : 0 < width) (h : n < 10 ^ width) (width' : Nat) (rest : List Char) :
    part? mark width' (padded width n ++ rest) = none := by
  have hne : padded width n ≠ [] := by
    rw [← List.length_pos_iff, length_padded hwidth h]
    exact hwidth
  obtain ⟨c, cs, heq⟩ := List.exists_cons_of_ne_nil hne
  have hc : c.isDigit = true := isDigit_of_mem_padded (heq ▸ List.mem_cons_self)
  rw [heq, List.cons_append, part?, if_neg (Number.ne_of_isDigit hc hmark)]

/-! ## Years -/

theorem year?_yearChars {year : Int} (h : year.natAbs < 10 ^ 6) (rest : List Char) :
    year? (yearChars year ++ rest) = some (year, rest) := by
  unfold yearChars year?
  by_cases hfour : 0 ≤ year ∧ year ≤ 9999
  · have hlt : year.toNat < 10 ^ 4 := by omega
    have hyear : (year.toNat : Int) = year := by omega
    rw [if_pos hfour, part?_of_isDigit rfl (by decide) hlt, part?_of_isDigit rfl (by decide) hlt,
      digits?_padded (by decide) hlt]
    simp only [Option.map_some, hyear]
  · rw [if_neg hfour]
    by_cases hneg : year < 0
    · have hpos : 0 < year.natAbs := by omega
      have hyear : -(year.natAbs : Int) = year := by omega
      rw [if_pos hneg, List.cons_append, part?_padded '-' (by decide) h]
      simp only [if_pos hpos, hyear]
    · have hlarge : 9999 < year.natAbs := by omega
      have hyear : (year.natAbs : Int) = year := by omega
      have hminus : part? '-' 6 ('+' :: (padded 6 year.natAbs ++ rest)) = none := by
        rw [part?, if_neg (by decide)]
      rw [if_neg hneg, List.cons_append, hminus, part?_padded '+' (by decide) h]
      simp only [if_pos hlarge, hyear]

/-- The years that the calendar reaches have six digits at most. -/
theorem year_lt_of_reach {t : Int} (h : t.natAbs ≤ reach) : (moment t).year.natAbs < 10 ^ 6 := by
  obtain ⟨hdays, hplace, -⟩ := marchYear_marchDay (t / dayLength)
  have hreach : -100000000 ≤ t / dayLength ∧ t / dayLength ≤ 100000000 := by
    unfold dayLength
    unfold reach at h
    omega
  unfold moment
  rw [date_eq]
  unfold yearOf
  unfold leaps daysTo1970 at hdays
  simp only
  split <;> omega

/-! ## Moments -/

/-- The parts of a moment in a row, each behind its mark. -/
def Moment.chars (m : Moment) : List Char :=
  yearChars m.year ++ '-' :: (padded 2 m.month ++ '-' :: (padded 2 m.day ++
    'T' :: (padded 2 m.hour ++ ':' :: (padded 2 m.minute ++ ':' :: (padded 2 m.second ++
      '.' :: (padded 3 m.millisecond ++ ['Z']))))))

theorem chars_eq (t : Instant) : t.chars = (moment t).chars := by
  unfold chars Date.chars timeChars moment Moment.chars
  simp only [List.append_assoc, List.cons_append]

theorem Moment.read?_chars {m : Moment} (hvalid : m.Valid) (hyear : m.year.natAbs < 10 ^ 6) :
    read? m.chars = some m := by
  have hmonth : m.month < 10 ^ 2 := Nat.lt_of_le_of_lt hvalid.month_le (by decide)
  have hday : m.day < 10 ^ 2 :=
    Nat.lt_of_le_of_lt (Nat.le_trans hvalid.day_le (monthLength_le _ _)) (by decide)
  have hhour : m.hour < 10 ^ 2 := Nat.lt_trans hvalid.hour_lt (by decide)
  have hminute : m.minute < 10 ^ 2 := Nat.lt_trans hvalid.minute_lt (by decide)
  have hsecond : m.second < 10 ^ 2 := Nat.lt_trans hvalid.second_lt (by decide)
  have hmillisecond : m.millisecond < 10 ^ 3 := hvalid.millisecond_lt
  unfold read? chars
  simp only [year?_yearChars hyear, part?_padded '-' (by decide) hmonth,
    part?_padded '-' (by decide) hday, part?_padded 'T' (by decide) hhour,
    part?_padded ':' (by decide) hminute, part?_padded ':' (by decide) hsecond,
    part?_padded '.' (by decide) hmillisecond, Option.bind_eq_bind, Option.bind_some, if_true]

/-- What is read in the text of an instant is its moment. -/
theorem read?_chars {t : Int} (h : t.natAbs ≤ reach) : read? (chars t) = some (moment t) := by
  rw [chars_eq]
  exact Moment.read?_chars (valid_moment t) (year_lt_of_reach h)

/-- No two instants have the same text, as far as the calendar reaches. -/
theorem eq_of_chars_eq {t t' : Int} (h : t.natAbs ≤ reach) (h' : t'.natAbs ≤ reach)
    (heq : chars t = chars t') : t = t' := by
  have hmoment : moment t = moment t' := by
    apply Option.some.inj
    rw [← read?_chars h, ← read?_chars h', heq]
  calc t = (moment t).instant := (instant_moment t).symm
    _ = (moment t').instant := by rw [hmoment]
    _ = t' := instant_moment t'

end BuildFeed.Instant
