-- Digits can be read back. They spell the number that they were written for, with any zeros in front
-- of them, and without such zeros no other digits spell it. So an integer of up to 53 bits is read as
-- just what was written.
import Mathlib.Data.List.Induction
import Mathlib.Data.List.TakeDrop
import BuildFeed.Number.Reader
import BuildFeed.Proofs.Number.Whole

namespace BuildFeed.Number

/-! ## What digits spell -/

variable {cs : List Char}

theorem digitValue?_of_isDigit {c : Char} (h : c.isDigit = true) :
    digitValue? c = some (c.toNat - '0'.toNat) := by
  have hrange : '0' ≤ c ∧ c ≤ '9' := Char.isDigit_iff_toNat.mp h
  unfold digitValue?
  rw [if_pos hrange]

theorem toNat_sub_lt_ten {c : Char} (h : c.isDigit = true) : c.toNat - '0'.toNat < 10 := by
  have hle : c.toNat ≤ '9'.toNat := (Char.isDigit_iff_toNat.mp h).2
  have hnine : '9'.toNat = 57 := rfl
  have hzero : '0'.toNat = 48 := rfl
  omega

theorem digitsAfter?_of_isDigit (h : ∀ c ∈ cs, c.isDigit = true) (n : Nat) :
    digitsAfter? 10 n cs = some (Nat.ofDigitChars 10 cs n) := by
  induction cs generalizing n with
  | nil => rfl
  | cons c cs ih =>
    have hc := h c List.mem_cons_self
    rw [digitsAfter?, digitValue?_of_isDigit hc]
    simp only [if_pos (toNat_sub_lt_ten hc)]
    rw [ih (fun d hd => h d (List.mem_cons_of_mem _ hd)), Nat.ofDigitChars_cons]

theorem ofDigits?_of_isDigit (hne : cs ≠ []) (h : ∀ c ∈ cs, c.isDigit = true) :
    ofDigits? 10 cs = some (Nat.ofDigitChars 10 cs 0) := by
  unfold ofDigits?
  split
  · exact absurd rfl hne
  · exact digitsAfter?_of_isDigit h 0

theorem isDigit_of_mem_digitChars {n : Nat} {c : Char} (h : c ∈ digitChars n) :
    c.isDigit = true :=
  Nat.isDigit_of_mem_toDigits (by decide) (by decide) h

theorem digitChars_ne_nil (n : Nat) : digitChars n ≠ [] := Nat.toDigits_ne_nil

theorem ofDigits?_digitChars (n : Nat) : ofDigits? 10 (digitChars n) = some n := by
  rw [ofDigits?_of_isDigit (digitChars_ne_nil n) (fun c hc => isDigit_of_mem_digitChars hc)]
  exact congrArg some Nat.ofDigitChars_ten_toDigits

theorem head?_digitChars_ne {n : Nat} (h : n ≠ 0) : (digitChars n).head? ≠ some '0' := by
  unfold digitChars
  induction n using Nat.strongRecOn with
  | ind n ih =>
    by_cases hlt : n < 10
    · rw [Nat.toDigits_of_lt_base hlt]
      simpa using h
    · have hrest : n / 10 ≠ 0 := by omega
      have hhead := ih (n / 10) (by omega) hrest
      obtain ⟨c, cs, hcs⟩ := List.exists_cons_of_ne_nil (digitChars_ne_nil (n / 10))
      rw [Nat.toDigits_of_base_le (by decide) (by omega)]
      unfold digitChars at hcs
      rw [hcs] at hhead ⊢
      exact hhead

theorem isDigit_of_mem_zeros {n : Nat} (c : Char) (h : c ∈ List.replicate n '0') :
    c.isDigit = true := by
  rw [List.eq_of_mem_replicate h]
  rfl

/-- Zeros in front do not count. -/
theorem ofDigits?_zeros_digitChars (k n : Nat) :
    ofDigits? 10 (List.replicate k '0' ++ digitChars n) = some n := by
  have hdigits : ∀ c ∈ List.replicate k '0' ++ digitChars n, c.isDigit = true :=
    List.forall_mem_append.mpr ⟨isDigit_of_mem_zeros, fun _ hc => isDigit_of_mem_digitChars hc⟩
  have hne : List.replicate k '0' ++ digitChars n ≠ [] := by
    intro h
    exact digitChars_ne_nil n (List.append_eq_nil_iff.mp h).2
  rw [ofDigits?_of_isDigit hne hdigits, Nat.ofDigitChars_append, Nat.ofDigitChars_replicate_zero,
    Nat.mul_zero]
  exact congrArg some Nat.ofDigitChars_ten_toDigits

/-! ## Only these digits spell it -/

/-- A character with a value below ten is a digit. -/
theorem isDigit_of_digitValue? {c : Char} {d : Nat} (h : digitValue? c = some d) (hd : d < 10) :
    c.isDigit = true := by
  unfold digitValue? at h
  split at h
  · rename_i hrange
    exact Char.isDigit_iff_toNat.mpr hrange
  · split at h
    · cases h
      omega
    · split at h
      · cases h
        omega
      · cases h

theorem isDigit_of_digitsAfter? {n m : Nat} (h : digitsAfter? 10 n cs = some m) :
    ∀ c ∈ cs, c.isDigit = true := by
  induction cs generalizing n with
  | nil => simp
  | cons c cs ih =>
    rw [digitsAfter?] at h
    split at h
    · rename_i d hd
      split at h
      · rename_i hlt
        intro x hx
        rcases List.mem_cons.mp hx with rfl | hx
        · exact isDigit_of_digitValue? hd hlt
        · exact ih h x hx
      · cases h
    · cases h

theorem isDigit_of_ofDigits? {n : Nat} (h : ofDigits? 10 cs = some n) :
    cs ≠ [] ∧ ∀ c ∈ cs, c.isDigit = true := by
  unfold ofDigits? at h
  split at h
  · cases h
  · rename_i hne
    exact ⟨hne, isDigit_of_digitsAfter? h⟩

theorem digitChar_of_isDigit {c : Char} (h : c.isDigit = true) :
    Nat.digitChar (c.toNat - '0'.toNat) = c := by
  obtain ⟨hlow, hhigh⟩ := Char.isDigit_iff_toNat.mp h
  have hnine : '9'.toNat = 57 := rfl
  have hzero : '0'.toNat = 48 := rfl
  apply Char.toNat_inj.mp
  rw [Nat.toNat_digitChar_of_lt_ten (by omega)]
  omega

/-- Digits without a zero in front are the digits of what they spell. The induction takes the last
digit off, as writing puts it on; what is left of several digits spells no zero. -/
theorem digitChars_ofDigitChars (hne : cs ≠ []) (h : ∀ c ∈ cs, c.isDigit = true)
    (hzero : cs = ['0'] ∨ cs.head? ≠ some '0') :
    digitChars (Nat.ofDigitChars 10 cs 0) = cs := by
  induction cs using List.reverseRecOn with
  | nil => exact absurd rfl hne
  | append_singleton ds c ih =>
    have hc : c.isDigit = true := h c (by simp)
    have hds : ∀ d ∈ ds, d.isDigit = true := fun d hd => h d (List.mem_append_left _ hd)
    have hlt := toNat_sub_lt_ten hc
    rw [Nat.ofDigitChars_append, Nat.ofDigitChars_cons, Nat.ofDigitChars_nil]
    unfold digitChars at ih ⊢
    by_cases hempty : ds = []
    · subst hempty
      rw [Nat.ofDigitChars_nil, Nat.mul_zero, Nat.zero_add, Nat.toDigits_of_lt_base hlt,
        digitChar_of_isDigit hc]
      rfl
    · have hhead : ds.head? ≠ some '0' := by
        rcases hzero with hone | hhead
        · have hlen := congrArg List.length hone
          rw [List.length_append, List.length_singleton, List.length_singleton] at hlen
          exact absurd (List.length_eq_zero_iff.mp (by omega)) hempty
        · intro hfirst
          rw [List.head?_append, hfirst] at hhead
          exact hhead rfl
      have hwhole := ih hempty hds (.inr hhead)
      have hpos : 0 < Nat.ofDigitChars 10 ds 0 := by
        apply Nat.pos_of_ne_zero
        intro h0
        rw [h0, Nat.toDigits_zero] at hwhole
        rw [← hwhole] at hhead
        exact hhead rfl
      rw [← Nat.toDigits_append_toDigits (by decide) hpos hlt, hwhole, Nat.toDigits_of_lt_base hlt,
        digitChar_of_isDigit hc]

/-! ## Integers -/

/-- A span ends where the property does. -/
theorem span_append {α : Type} {p : α → Bool} {front rest : List α} (hfront : ∀ a ∈ front, p a = true)
    (hrest : ∀ a ∈ rest.head?, p a = false) : (front ++ rest).span p = (front, rest) := by
  rw [List.span_eq_takeWhile_dropWhile, List.takeWhile_append_of_pos hfront,
    List.dropWhile_append_of_pos hfront]
  cases rest with
  | nil => simp
  | cons a rest =>
    have ha : p a = false := hrest a rfl
    simp [ha]

theorem span_of_forall {α : Type} {p : α → Bool} {l : List α} (h : ∀ a ∈ l, p a = true) :
    l.span p = (l, []) := by
  have hspan : (l ++ []).span p = (l, []) := span_append h (by simp)
  rwa [List.append_nil] at hspan

theorem ne_of_isDigit {c d : Char} (h : c.isDigit = true) (hd : d.isDigit = false) : c ≠ d := by
  intro heq
  rw [heq, hd] at h
  cases h

theorem not_isExponentMark_of_isDigit {c : Char} (h : c.isDigit = true) :
    isExponentMark c = false := by
  have hlow : c ≠ 'e' := ne_of_isDigit h rfl
  have hhigh : c ≠ 'E' := ne_of_isDigit h rfl
  simp [isExponentMark, hlow, hhigh]

/-- Digits without a point and an exponent are a decimal as they stand. -/
theorem decimal?_digitChars (n : Nat) : decimal? (digitChars n) = some ⟨n, 0⟩ := by
  have hmantissa : (digitChars n).span (fun c => !isExponentMark c) = (digitChars n, []) := by
    apply span_of_forall
    intro c hc
    rw [not_isExponentMark_of_isDigit (isDigit_of_mem_digitChars hc)]
    rfl
  have hwhole : (digitChars n).span (fun c => decide (c ≠ '.')) = (digitChars n, []) := by
    apply span_of_forall
    intro c hc
    exact decide_eq_true (ne_of_isDigit (isDigit_of_mem_digitChars hc) rfl)
  unfold decimal?
  simp only [hmantissa, hwhole, List.drop_nil, List.append_nil, ofDigits?_digitChars]
  rfl

theorem signed_of_isDigit {c : Char} (h : c.isDigit = true) : signed (c :: cs) = (false, c :: cs) := by
  have hminus : c ≠ '-' := ne_of_isDigit h rfl
  have hplus : c ≠ '+' := ne_of_isDigit h rfl
  unfold signed
  split
  · rename_i heq
    cases heq
    exact absurd rfl hminus
  · rename_i heq
    cases heq
    exact absurd rfl hplus
  · rfl

theorem signed_digitChars (n : Nat) : signed (digitChars n) = (false, digitChars n) := by
  obtain ⟨c, cs, hcs⟩ := List.exists_cons_of_ne_nil (digitChars_ne_nil n)
  rw [hcs]
  apply signed_of_isDigit
  apply isDigit_of_mem_digitChars (n := n)
  rw [hcs]
  exact List.mem_cons_self

theorem signed_intChars (n : Int) : signed (intChars n) = (decide (n < 0), digitChars n.natAbs) := by
  unfold intChars
  split
  · rename_i hneg
    rw [decide_eq_true hneg]
    rfl
  · rename_i hneg
    rw [decide_eq_false hneg, signed_digitChars]

theorem length_digitChars_le {n : Nat} (h : n ≤ wholeReach) : (digitChars n).length ≤ 16 := by
  apply (Nat.length_toDigits_le_iff (by decide) (by decide)).mpr
  have hreach : wholeReach < 10 ^ 16 := by decide
  omega

/-- A decimal of up to 53 bits with no exponent is exact. -/
theorem number_decimal {n : Nat} (h : n ≤ wholeReach) (negative : Bool) :
    Decimal.number negative ⟨n, 0⟩ = .finite (if negative then -(n * unit : Nat) else (n * unit : Nat)) := by
  have hlength := length_digitChars_le h
  unfold Decimal.number
  by_cases hn : n = 0
  · subst hn
    simp
  · have hplace : ¬ (n = 0 ∨ ((digitChars n).length : Int) + 0 < -400) := by omega
    have hmost : ¬ 400 < ((digitChars n).length : Int) + 0 := by omega
    simp only [hplace, hmost, if_false]
    have hpower : Decimal.power 0 = (1, 1) := rfl
    rw [hpower]
    unfold ofQuotient
    simp only [Nat.mul_one, rounded_whole h]
    rw [if_neg (Nat.not_le.mpr (whole_lt_overflow h))]

/-- An integer of up to 53 bits is read from its digits. -/
theorem ofSigned_intChars {n : Int} (h : n.natAbs ≤ wholeReach) :
    ofSigned (intChars n) = ofInt n := by
  have hword : digitChars n.natAbs ≠ "Infinity".toList := by
    intro heq
    have hletter : 'I' ∈ digitChars n.natAbs := by
      rw [heq]
      decide
    exact absurd (isDigit_of_mem_digitChars hletter) (by decide)
  unfold ofSigned
  rw [signed_intChars]
  simp only [hword, if_false, decimal?_digitChars, number_decimal h]
  rw [ofInt_of_le h, signed_natAbs_mul]

theorem chars_ofInt {n : Int} (h : n.natAbs ≤ wholeReach) : (ofInt n).chars = intChars n := by
  rw [ofInt_of_le h]
  unfold chars
  simp only [whole?_mul_unit]
  exact if_pos h

end BuildFeed.Number
