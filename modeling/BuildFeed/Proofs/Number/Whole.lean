-- The whole numbers among the numbers. Those of up to 53 bits are held exactly, so they are ordered
-- like the integers, and a difference of two of them that is no larger is exact as well.
import Mathlib.Algebra.Group.Nat.Defs
import BuildFeed.Number.Basic

namespace BuildFeed.Number

/-! ## Rounding what needs no rounding -/

theorem nearest_of_dvd {num den : Nat} (h : den ∣ num) : nearest num den = num / den := by
  have hrem : num % den = 0 := Nat.mod_eq_zero_of_dvd h
  unfold nearest
  simp only [hrem, Nat.mul_zero]
  by_cases hden : 0 < den
  · rw [if_pos hden]
  · have hzero : den = 0 := by omega
    subst hzero
    simp

theorem div_le_nearest (num den : Nat) : num / den ≤ nearest num den := by
  unfold nearest
  simp only
  split
  · exact Nat.le_refl _
  · split
    · exact Nat.le_succ _
    · split
      · exact Nat.le_refl _
      · exact Nat.le_succ _

theorem rounded_of_grain_dvd {steps : Nat} (h : grain steps ∣ steps) : rounded steps 1 = steps := by
  unfold rounded
  simp only [Nat.div_one, Nat.one_mul]
  rw [nearest_of_dvd h, Nat.div_mul_cancel h]

/-- A count of up to 53 bits is on the grid, whatever power of two it is scaled by. -/
theorem grain_dvd {n : Nat} (h : n ≤ 2 ^ significantBits) (k : Nat) :
    grain (n * 2 ^ k) ∣ n * 2 ^ k := by
  unfold grain
  rcases Nat.lt_or_eq_of_le h with hlt | rfl
  · refine Nat.dvd_trans (Nat.pow_dvd_pow 2 ?_) (Nat.dvd_mul_left (2 ^ k) n)
    by_cases hn : n * 2 ^ k = 0
    · rw [hn]
      simp [significantBits]
    · have hbits : n * 2 ^ k < 2 ^ (significantBits + k) := by
        rw [Nat.pow_add]
        exact Nat.mul_lt_mul_of_pos_right hlt (Nat.two_pow_pos k)
      have := (Nat.log2_lt hn).mpr hbits
      omega
  · rw [← Nat.pow_add, Nat.log2_two_pow]
    exact Nat.pow_dvd_pow 2 (by unfold significantBits; omega)

/-- Rounding never falls below the highest bit. -/
theorem two_pow_log2_le_rounded {steps : Nat} (h : steps ≠ 0) : 2 ^ steps.log2 ≤ rounded steps 1 := by
  have hgrain : grain steps ∣ 2 ^ steps.log2 := by
    unfold grain
    exact Nat.pow_dvd_pow 2 (by unfold significantBits; omega)
  have hfloor : 2 ^ steps.log2 ≤ steps / grain steps * grain steps := by
    obtain ⟨k, hk⟩ := hgrain
    have hpos : 0 < grain steps := Nat.two_pow_pos _
    have hle : grain steps * k ≤ steps := hk ▸ Nat.log2_self_le h
    rw [hk, Nat.mul_comm]
    exact Nat.mul_le_mul_right _ ((Nat.le_div_iff_mul_le hpos).mpr (Nat.mul_comm k _ ▸ hle))
  have hnearest := div_le_nearest steps (grain steps)
  unfold rounded
  simp only [Nat.div_one, Nat.one_mul]
  exact Nat.le_trans hfloor (Nat.mul_le_mul_right _ hnearest)

/-! ## Whole numbers -/

/-- The largest magnitude up to which every integer is a number. -/
def wholeReach : Nat := 2 ^ significantBits

/-- One, and what is past the largest number, as powers of two steps. -/
theorem exists_unit_eq : ∃ k, unit = 2 ^ k ∧ overflow = 2 ^ (1024 + k) := by
  unfold unit overflow
  generalize 1074 = k
  exact ⟨k, rfl, rfl⟩

theorem unit_pos : 0 < unit := by
  obtain ⟨k, hunit, -⟩ := exists_unit_eq
  rw [hunit]
  exact Nat.two_pow_pos k

theorem rounded_whole {n : Nat} (h : n ≤ wholeReach) : rounded (n * unit) 1 = n * unit := by
  obtain ⟨k, hunit, -⟩ := exists_unit_eq
  rw [hunit]
  exact rounded_of_grain_dvd (grain_dvd h k)

theorem whole_lt_overflow {n : Nat} (h : n ≤ wholeReach) : n * unit < overflow := by
  obtain ⟨k, hunit, hoverflow⟩ := exists_unit_eq
  rw [hunit, hoverflow]
  calc n * 2 ^ k ≤ 2 ^ significantBits * 2 ^ k := Nat.mul_le_mul_right _ h
    _ = 2 ^ (significantBits + k) := (Nat.pow_add ..).symm
    _ < 2 ^ (1024 + k) := Nat.pow_lt_pow_right (by decide) (by unfold significantBits; omega)

/-- A magnitude with its sign put back. -/
theorem signed_natAbs_mul (n : Int) (k : Nat) :
    (if decide (n < 0) = true then -((n.natAbs * k : Nat) : Int) else (n.natAbs * k : Nat)) =
      n * k := by
  rw [Int.natCast_mul]
  by_cases hn : n < 0
  · have habs : (n.natAbs : Int) = -n := by omega
    rw [if_pos (decide_eq_true hn), habs, Int.neg_mul, Int.neg_neg]
  · have habs : (n.natAbs : Int) = n := by omega
    rw [if_neg (by simpa only [decide_eq_true_iff] using hn), habs]

/-- An integer of up to 53 bits is held exactly. -/
theorem ofInt_of_le {n : Int} (h : n.natAbs ≤ wholeReach) : ofInt n = .finite (n * unit) := by
  unfold ofInt ofQuotient
  simp only [rounded_whole h]
  rw [if_neg (Nat.not_le.mpr (whole_lt_overflow h)), signed_natAbs_mul]

/-- What is not below the reach of the integers is not rounded to below it. -/
theorem wholeReach_le_rounded {n : Nat} (h : wholeReach ≤ n) :
    wholeReach * unit ≤ rounded (n * unit) 1 := by
  obtain ⟨k, hunit, -⟩ := exists_unit_eq
  have hle : wholeReach * unit ≤ n * unit := Nat.mul_le_mul_right _ h
  have hpower : wholeReach * unit = 2 ^ (significantBits + k) := by
    rw [hunit, wholeReach, Nat.pow_add]
  rw [hpower] at hle ⊢
  have hne : n * unit ≠ 0 := by
    have := Nat.two_pow_pos (significantBits + k)
    omega
  have hbits : significantBits + k ≤ (n * unit).log2 := (Nat.le_log2 hne).mpr hle
  exact Nat.le_trans (Nat.pow_le_pow_right (by decide) hbits) (two_pow_log2_le_rounded hne)

theorem whole?_mul_unit (n : Int) : whole? (.finite (n * unit)) = some n := by
  have hunit : (unit : Int) ≠ 0 := Int.natCast_ne_zero.mpr (Nat.pos_iff_ne_zero.mp unit_pos)
  rw [whole?, if_pos (Int.mul_emod_left n unit), Int.mul_ediv_cancel n hunit]

theorem eq_of_whole? {x : Number} {n : Int} (h : x.whole? = some n) : x = .finite (n * unit) := by
  unfold whole? at h
  split at h
  · split at h
    · rename_i hrem
      cases h
      rw [Int.ediv_mul_cancel (Int.dvd_of_emod_eq_zero hrem)]
    · cases h
  · cases h

theorem whole?_zero : whole? (.finite 0) = some 0 := by
  have hwhole := whole?_mul_unit 0
  rwa [Int.zero_mul] at hwhole

theorem finite_le_finite (a b : Int) : Number.finite a ≤ .finite b ↔ a ≤ b := by
  change decide (a ≤ b) = true ↔ a ≤ b
  exact decide_eq_true_iff

theorem ofInt_le_ofInt {m n : Int} (hm : m.natAbs ≤ wholeReach) (hn : n.natAbs ≤ wholeReach) :
    ofInt m ≤ ofInt n ↔ m ≤ n := by
  rw [ofInt_of_le hm, ofInt_of_le hn, finite_le_finite]
  exact Int.mul_le_mul_right (Int.natCast_pos.mpr unit_pos)

theorem finite_sub_finite (a b : Int) :
    Number.finite a - .finite b = ofQuotient (a < b) (a - b).natAbs 1 := by
  change sub (.finite a) (.finite b) = _
  rw [sub]

/-- A difference of integers is exact if all three have up to 53 bits. -/
theorem ofInt_sub_ofInt {m n : Int} (hm : m.natAbs ≤ wholeReach) (hn : n.natAbs ≤ wholeReach) :
    ofInt m - ofInt n = ofInt (m - n) := by
  have hsteps : (m * (unit : Int) - n * unit).natAbs = (m - n).natAbs * unit := by
    rw [← Int.sub_mul, Int.natAbs_mul, Int.natAbs_natCast]
  have hneg : m * (unit : Int) < n * unit ↔ m - n < 0 := by
    rw [Int.mul_lt_mul_right (Int.natCast_pos.mpr unit_pos)]
    omega
  rw [ofInt_of_le hm, ofInt_of_le hn]
  rw [finite_sub_finite, hsteps, ofInt]
  simp only [hneg]

end BuildFeed.Number
