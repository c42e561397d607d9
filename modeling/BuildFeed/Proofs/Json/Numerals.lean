-- The text of every finite number is a number of the JSON grammar. It has a whole part without a zero
-- in front of other digits, and behind that a fraction and an exponent where it needs them.
import BuildFeed.Json.Reader
import BuildFeed.Proofs.Number.Digits

namespace BuildFeed

namespace Number

/-! ## The shortest decimal is not zero -/

theorem rounded_zero (den : Nat) : rounded 0 den = 0 := by
  have hnearest : ∀ d, nearest 0 d = 0 := by
    intro d
    unfold nearest
    simp
  unfold rounded
  simp [hnearest]

/-- Zero reads back as nothing but zero. -/
theorem steps_zero (exponent : Int) : (Decimal.mk 0 exponent).steps = 0 := by
  unfold Decimal.steps
  simp [rounded_zero]

theorem digits_ne_zero_of_readsBack? {steps : Nat} {exponent : Int} {d : Decimal} (h : steps ≠ 0)
    (hd : readsBack? steps exponent = some d) : d.digits ≠ 0 := by
  unfold readsBack? at hd
  simp only at hd
  generalize steps * (Decimal.power exponent).2 = num at hd
  generalize unit * (Decimal.power exponent).1 = den at hd
  have hlow : (Decimal.mk (num / den) exponent).steps = steps → num / den ≠ 0 := by
    intro hback hzero
    rw [hzero, steps_zero] at hback
    exact h hback.symm
  split at hd
  · rename_i hboth
    cases hd
    intro hzero
    have hzero : nearest num den = 0 := hzero
    have hle := div_le_nearest num den
    rw [hzero] at hle
    exact hlow hboth.1 (Nat.le_zero.mp hle)
  · split at hd
    · rename_i hbelow
      cases hd
      exact hlow hbelow
    · split at hd
      · cases hd
        exact Nat.succ_ne_zero _
      · cases hd

theorem Decimal.digits_strip_ne_zero (fuel : Nat) {d : Decimal} (h : d.digits ≠ 0) :
    (d.strip fuel).digits ≠ 0 := by
  induction fuel generalizing d with
  | zero => exact h
  | succ fuel ih =>
    unfold Decimal.strip
    split
    · apply ih
      simp only
      omega
    · exact h

theorem digits_getD_ne_zero {found : Option Decimal} {usual : Decimal} (h : usual.digits ≠ 0)
    (hfound : ∀ d, found = some d → d.digits ≠ 0) : (found.getD usual).digits ≠ 0 := by
  cases found with
  | none => exact h
  | some d => exact hfound d rfl

theorem digits_shortest_ne_zero {steps : Nat} (h : steps ≠ 0) : (shortest steps).digits ≠ 0 := by
  unfold shortest
  apply Decimal.digits_strip_ne_zero
  apply digits_getD_ne_zero h
  intro d hd
  obtain ⟨n, -, hn⟩ := List.exists_of_findSome?_eq_some hd
  exact digits_ne_zero_of_readsBack? h hn

end Number

namespace Json

/-! ## Parts of numbers -/

open Number (digitChars isExponentMark)

variable {cs ds : List Char}

theorem areDigits_iff : areDigits cs = true ↔ cs ≠ [] ∧ ∀ c ∈ cs, c.isDigit = true := by
  simp [areDigits]

theorem areDigits_digitChars (n : Nat) : areDigits (digitChars n) = true :=
  areDigits_iff.mpr ⟨Number.digitChars_ne_nil n, fun _ hc => Number.isDigit_of_mem_digitChars hc⟩

theorem areDigits_zeros_append (n : Nat) (h : areDigits cs = true) :
    areDigits (List.replicate n '0' ++ cs) = true := by
  obtain ⟨hne, hdigits⟩ := areDigits_iff.mp h
  apply areDigits_iff.mpr
  exact ⟨by simp [hne], List.forall_mem_append.mpr ⟨Number.isDigit_of_mem_zeros, hdigits⟩⟩

theorem areDigits_append_zeros (n : Nat) (h : areDigits cs = true) :
    areDigits (cs ++ List.replicate n '0') = true := by
  obtain ⟨hne, hdigits⟩ := areDigits_iff.mp h
  apply areDigits_iff.mpr
  exact ⟨by simp [hne], List.forall_mem_append.mpr ⟨hdigits, Number.isDigit_of_mem_zeros⟩⟩

theorem isWhole_of_head? (h : areDigits cs = true) (hhead : cs.head? ≠ some '0') :
    isWhole cs = true := by
  simp [isWhole, h, hhead]

/-- A number of the grammar without a sign, in its parts. -/
def IsUnsigned (cs : List Char) : Prop :=
  ∃ whole fraction exponent, cs = whole ++ fraction ++ exponent ∧
    isWhole whole = true ∧ isFraction fraction = true ∧ isExponent exponent = true

theorem isDigit_of_isWhole (h : isWhole cs = true) : cs ≠ [] ∧ ∀ c ∈ cs, c.isDigit = true := by
  unfold isWhole at h
  rw [Bool.and_eq_true] at h
  exact areDigits_iff.mp h.1

theorem isFraction_cases (h : isFraction cs = true) : cs = [] ∨ ∃ ds, cs = '.' :: ds ∧ areDigits ds = true := by
  cases cs with
  | nil => exact .inl rfl
  | cons c ds =>
    simp only [isFraction, Bool.and_eq_true, beq_iff_eq] at h
    exact .inr ⟨ds, by rw [h.1], h.2⟩

theorem isExponent_cases (h : isExponent cs = true) :
    cs = [] ∨ ∃ mark ds, cs = mark :: ds ∧ isExponentMark mark = true ∧
      areDigits (Number.signed ds).2 = true := by
  cases cs with
  | nil => exact .inl rfl
  | cons mark ds =>
    simp only [isExponent, Bool.and_eq_true] at h
    exact .inr ⟨mark, ds, rfl, h.1, h.2⟩

theorem not_isExponentMark_of_isFraction (h : isFraction cs = true) :
    ∀ c ∈ cs, isExponentMark c = false := by
  rcases isFraction_cases h with rfl | ⟨ds, rfl, hds⟩
  · simp
  · intro c hc
    rcases List.mem_cons.mp hc with rfl | hc
    · rfl
    · exact Number.not_isExponentMark_of_isDigit ((areDigits_iff.mp hds).2 c hc)

/-- The parts are found again, first the exponent by its mark and then the fraction by its point. -/
theorem isNumeral_of_unsigned_eq {numeral whole fraction exponent : List Char}
    (heq : unsigned numeral = whole ++ fraction ++ exponent) (hwhole : isWhole whole = true)
    (hfraction : isFraction fraction = true) (hexponent : isExponent exponent = true) :
    isNumeral numeral = true := by
  have hdigits := (isDigit_of_isWhole hwhole).2
  have hmantissa : (whole ++ fraction ++ exponent).span (fun c => !isExponentMark c) =
      (whole ++ fraction, exponent) := by
    apply Number.span_append
    · intro c hc
      rcases List.mem_append.mp hc with hc | hc
      · rw [Number.not_isExponentMark_of_isDigit (hdigits c hc)]
        rfl
      · rw [not_isExponentMark_of_isFraction hfraction c hc]
        rfl
    · rcases isExponent_cases hexponent with rfl | ⟨mark, ds, rfl, hmark, -⟩
      · simp
      · simp [hmark]
  have hpoint : (whole ++ fraction).span (fun c => decide (c ≠ '.')) = (whole, fraction) := by
    apply Number.span_append
    · intro c hc
      exact decide_eq_true (Number.ne_of_isDigit (hdigits c hc) rfl)
    · rcases isFraction_cases hfraction with rfl | ⟨ds, rfl, -⟩
      · simp
      · simp
  unfold isNumeral
  rw [heq, hmantissa]
  simp only [hpoint, hwhole, hfraction, hexponent, Bool.and_self]

theorem IsUnsigned.isNumeral (h : IsUnsigned cs) :
    isNumeral cs = true ∧ isNumeral ('-' :: cs) = true := by
  obtain ⟨whole, fraction, exponent, rfl, hwhole, hfraction, hexponent⟩ := h
  obtain ⟨hne, hdigits⟩ := isDigit_of_isWhole hwhole
  constructor
  · refine isNumeral_of_unsigned_eq ?_ hwhole hfraction hexponent
    obtain ⟨c, rest, rfl⟩ := List.exists_cons_of_ne_nil hne
    have hminus : c ≠ '-' := Number.ne_of_isDigit (hdigits c List.mem_cons_self) rfl
    unfold unsigned
    split
    · rename_i heq
      cases heq
      exact absurd rfl hminus
    · rfl
  · exact isNumeral_of_unsigned_eq rfl hwhole hfraction hexponent

/-! ## Characters of numbers -/

theorem isNumberLetter_of_isDigit {c : Char} (h : c.isDigit = true) : isNumberLetter c = true := by
  simp [isNumberLetter, h]

theorem isNumberLetter_of_areDigits (h : areDigits cs = true) : ∀ c ∈ cs, isNumberLetter c = true :=
  fun c hc => isNumberLetter_of_isDigit ((areDigits_iff.mp h).2 c hc)

theorem isNumberLetter_of_signed (h : areDigits (Number.signed cs).2 = true) :
    ∀ c ∈ cs, isNumberLetter c = true := by
  have hrest := isNumberLetter_of_areDigits h
  unfold Number.signed at hrest
  split at hrest
  · exact List.forall_mem_cons.mpr ⟨by decide, hrest⟩
  · exact List.forall_mem_cons.mpr ⟨by decide, hrest⟩
  · exact hrest

theorem IsUnsigned.isNumberLetter (h : IsUnsigned cs) : ∀ c ∈ cs, isNumberLetter c = true := by
  obtain ⟨whole, fraction, exponent, rfl, hwhole, hfraction, hexponent⟩ := h
  intro c hc
  rcases List.mem_append.mp hc with hc | hc
  · rcases List.mem_append.mp hc with hc | hc
    · exact isNumberLetter_of_isDigit ((isDigit_of_isWhole hwhole).2 c hc)
    · rcases isFraction_cases hfraction with rfl | ⟨ds, rfl, hds⟩
      · cases hc
      · exact List.forall_mem_cons.mpr ⟨by decide, isNumberLetter_of_areDigits hds⟩ c hc
  · rcases isExponent_cases hexponent with rfl | ⟨mark, ds, rfl, hmark, hds⟩
    · cases hc
    · refine List.forall_mem_cons.mpr ⟨?_, isNumberLetter_of_signed hds⟩ c hc
      simp only [isExponentMark, Bool.or_eq_true, decide_eq_true_eq] at hmark
      rcases hmark with rfl | rfl
      · decide
      · decide

/-! ## Texts of numbers -/

theorem isUnsigned_digitChars (n : Nat) : IsUnsigned (digitChars n) := by
  refine ⟨digitChars n, [], [], by simp, ?_, rfl, rfl⟩
  by_cases hn : n = 0
  · subst hn
    decide
  · exact isWhole_of_head? (areDigits_digitChars n) (Number.head?_digitChars_ne hn)

/-- Digits filled up with zeros. -/
theorem isUnsigned_zeros (n : Nat) (h : areDigits cs = true) (hhead : cs.head? ≠ some '0') :
    IsUnsigned (cs ++ List.replicate n '0') := by
  obtain ⟨c, rest, rfl⟩ := List.exists_cons_of_ne_nil (areDigits_iff.mp h).1
  exact ⟨c :: rest ++ List.replicate n '0', [], [], by simp,
    isWhole_of_head? (areDigits_append_zeros n h) hhead, rfl, rfl⟩

/-- Digits with a point among them. -/
theorem isUnsigned_point (h : areDigits cs = true) (hhead : cs.head? ≠ some '0') {k : Nat}
    (hk : 0 < k) (hlt : k < cs.length) : IsUnsigned (cs.take k ++ '.' :: cs.drop k) := by
  have hdigits := (areDigits_iff.mp h).2
  have hbefore : areDigits (cs.take k) = true := by
    apply areDigits_iff.mpr
    refine ⟨?_, fun c hc => hdigits c (List.mem_of_mem_take hc)⟩
    rw [← List.length_pos_iff, List.length_take]
    omega
  have hbehind : areDigits (cs.drop k) = true := by
    apply areDigits_iff.mpr
    refine ⟨?_, fun c hc => hdigits c (List.mem_of_mem_drop hc)⟩
    rw [← List.length_pos_iff, List.length_drop]
    omega
  refine ⟨cs.take k, '.' :: cs.drop k, [], (List.append_nil _).symm, isWhole_of_head? hbefore ?_,
    by simpa [isFraction] using hbehind, rfl⟩
  rw [List.head?_take, if_neg (by omega)]
  exact hhead

/-- Digits behind a point and zeros. -/
theorem isUnsigned_small (n : Nat) (h : areDigits cs = true) :
    IsUnsigned ('0' :: '.' :: (List.replicate n '0' ++ cs)) := by
  refine ⟨['0'], '.' :: (List.replicate n '0' ++ cs), [], (List.append_nil _).symm, by decide, ?_, rfl⟩
  simpa [isFraction] using areDigits_zeros_append n h

/-- One digit, a point behind it if there are more, and an exponent. -/
theorem isUnsigned_scientific (digits exponent : List Char) :
    areDigits digits = true → digits.head? ≠ some '0' → isExponent exponent = true →
    IsUnsigned ((match digits with
      | [] => []
      | [c] => [c]
      | c :: rest => c :: '.' :: rest) ++ exponent) := by
  intro hdigits hhead hexponent
  obtain ⟨hne, hall⟩ := areDigits_iff.mp hdigits
  rcases digits with _ | ⟨c, _ | ⟨d, rest⟩⟩
  · exact absurd rfl hne
  · exact ⟨[c], [], exponent, by simp, isWhole_of_head? hdigits hhead, rfl, hexponent⟩
  · obtain ⟨hc, htail⟩ := List.forall_mem_cons.mp hall
    have hwhole : isWhole [c] = true := by
      apply isWhole_of_head? (areDigits_iff.mpr ⟨by simp, by simpa using hc⟩)
      exact hhead
    have htail : areDigits (d :: rest) = true := areDigits_iff.mpr ⟨by simp, htail⟩
    exact ⟨[c], '.' :: d :: rest, exponent, by simp, hwhole, by simpa [isFraction] using htail,
      hexponent⟩

theorem isUnsigned_decimal {d : Number.Decimal} (h : d.digits ≠ 0) : IsUnsigned d.chars := by
  have hdigits := areDigits_digitChars d.digits
  have hhead := Number.head?_digitChars_ne h
  unfold Number.Decimal.chars
  simp only
  split
  · exact isUnsigned_zeros _ hdigits hhead
  · rename_i hshort
    split
    · rename_i hwithin
      exact isUnsigned_point hdigits hhead (by omega) (by omega)
    · split
      · exact isUnsigned_small _ hdigits
      · apply isUnsigned_scientific _ _ hdigits hhead
        have hpower := areDigits_digitChars
          (((digitChars d.digits).length : Int) + d.exponent - 1).natAbs
        by_cases hnegative : ((digitChars d.digits).length : Int) + d.exponent - 1 < 0
        · rw [if_pos hnegative]
          exact hpower
        · rw [if_neg hnegative]
          exact hpower

/-- The text of a finite number is a number without a sign, or has a minus sign in front of one. -/
theorem isUnsigned_chars (steps : Int) :
    ∃ cs, IsUnsigned cs ∧
      ((Number.finite steps).chars = cs ∨ (Number.finite steps).chars = '-' :: cs) := by
  have hsigned : steps ≠ 0 → ∃ cs, IsUnsigned cs ∧
      (Number.chars.signed steps = cs ∨ Number.chars.signed steps = '-' :: cs) := by
    intro hne
    refine ⟨(Number.shortest steps.natAbs).chars,
      isUnsigned_decimal (Number.digits_shortest_ne_zero (by omega)), ?_⟩
    unfold Number.chars.signed
    simp only
    split
    · exact .inr rfl
    · exact .inl rfl
  unfold Number.chars
  simp only
  split
  · rename_i n hn
    split
    · refine ⟨digitChars n.natAbs, isUnsigned_digitChars _, ?_⟩
      unfold Number.intChars
      split
      · exact .inr rfl
      · exact .inl rfl
    · rename_i hlarge
      apply hsigned
      rintro rfl
      rw [Number.whole?_zero, Option.some.injEq] at hn
      rw [← hn] at hlarge
      exact hlarge (Nat.zero_le _)
  · rename_i hnone
    apply hsigned
    rintro rfl
    rw [Number.whole?_zero] at hnone
    cases hnone

/-! ## Numbers read -/

/-- A text does not go on with a character of numbers. -/
def EndsNumber (rest : List Char) : Prop := ∀ c ∈ rest.head?, isNumberLetter c = false

theorem number?_of_isNumeral (h : isNumeral cs = true) (hletters : ∀ c ∈ cs, isNumberLetter c = true)
    {rest : List Char} (hrest : EndsNumber rest) :
    number? (cs ++ rest) = some (.number (Number.ofSigned cs), rest) := by
  unfold number?
  rw [Number.span_append hletters hrest]
  exact if_pos h

/-- A finite number is read as what its text spells. -/
theorem number?_chars (steps : Int) {rest : List Char} (hrest : EndsNumber rest) :
    number? ((Number.finite steps).chars ++ rest) =
      some (.number (Number.ofSigned (Number.finite steps).chars), rest) := by
  obtain ⟨cs, hcs, heq | heq⟩ := isUnsigned_chars steps
  · rw [heq]
    exact number?_of_isNumeral hcs.isNumeral.1 hcs.isNumberLetter hrest
  · rw [heq]
    apply number?_of_isNumeral hcs.isNumeral.2 _ hrest
    exact List.forall_mem_cons.mpr ⟨by decide, hcs.isNumberLetter⟩

end Json

end BuildFeed
