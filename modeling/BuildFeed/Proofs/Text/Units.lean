-- The first units of a text. They end between two characters or within one that takes two units. In the
-- first case they are the start of the text, and in the second they are not: a replacement character
-- stands for the one that was cut.
import Mathlib.Data.List.Basic
import BuildFeed.Text.Utf16

namespace BuildFeed.Text

open Json (ofUnit? ofUnits?)

/-! ## Units -/

theorem length_utf16Char (c : Char) : (utf16Char c).length = unitsOf c := by
  unfold utf16Char unitsOf
  split <;> rfl

theorem utf16_cons (c : Char) (cs : List Char) : utf16 (c :: cs) = utf16Char c ++ utf16 cs := rfl

theorem utf16_append (cs ds : List Char) : utf16 (cs ++ ds) = utf16 cs ++ utf16 ds := by
  unfold utf16
  exact List.flatMap_append

/-- The units of a text are counted as they stand in UTF-16. -/
theorem length_utf16 (cs : List Char) : (utf16 cs).length = units cs := by
  induction cs with
  | nil => rfl
  | cons c cs ih => rw [utf16_cons, List.length_append, length_utf16Char, ih, units]

theorem units_append (cs ds : List Char) : units (cs ++ ds) = units cs + units ds := by
  rw [← length_utf16, utf16_append, List.length_append, length_utf16, length_utf16]

theorem unitsOf_eq_one_or_two (c : Char) : unitsOf c = 1 ∨ unitsOf c = 2 := by
  unfold unitsOf
  split
  · exact .inl rfl
  · exact .inr rfl

theorem unitsOf_halved : unitsOf halved = 1 := by decide

/-! ## Characters in UTF-16 -/

theorem toNat_valid (c : Char) :
    c.toNat < 0xD800 ∨ 0xDFFF < c.toNat ∧ c.toNat < 0x110000 := c.valid

/-- A character of one unit is that unit, and the unit is no half of a pair. -/
theorem utf16Char_of_one {c : Char} (h : unitsOf c = 1) :
    utf16Char c = [c.toNat] ∧ ofUnit? c.toNat = some c ∧ (∀ low, ofUnits? c.toNat low = none) ∧
      isTrail c.toNat = false := by
  have hbasic : c.toNat < 0x10000 := by
    unfold unitsOf at h
    split at h
    · assumption
    · cases h
  have hvalid := toNat_valid c
  refine ⟨if_pos hbasic, ?_, ?_, ?_⟩
  · unfold ofUnit?
    rw [if_neg (by omega), Char.ofNat_toNat]
  · intro low
    unfold ofUnits?
    exact if_neg (by omega)
  · unfold isTrail
    simp only [Bool.and_eq_false_iff, decide_eq_false_iff_not]
    omega

/-- A character of two units is a pair. Its first unit alone is no character. -/
theorem utf16Char_of_two {c : Char} (h : unitsOf c = 2) :
    ∃ high low, utf16Char c = [high, low] ∧ ofUnits? high low = some c ∧ ofUnit? high = none ∧
      isTrail high = false ∧ isTrail low = true := by
  have hbeyond : ¬ c.toNat < 0x10000 := by
    intro hlt
    rw [unitsOf, if_pos hlt] at h
    cases h
  have hvalid := toNat_valid c
  refine ⟨_, _, if_neg hbeyond, ?_, ?_, ?_, ?_⟩
  · have hcode : 0x10000 + 0x400 * (0xD800 + (c.toNat - 0x10000) / 0x400 - 0xD800) +
        (0xDC00 + (c.toNat - 0x10000) % 0x400 - 0xDC00) = c.toNat := by omega
    unfold ofUnits?
    rw [if_pos (by omega), hcode, Char.ofNat_toNat]
  · unfold ofUnit?
    exact if_pos (by omega)
  · unfold isTrail
    simp only [Bool.and_eq_false_iff, decide_eq_false_iff_not]
    omega
  · unfold isTrail
    simp only [Bool.and_eq_true, decide_eq_true_eq]
    omega

theorem ofUtf16_cons {unit : Nat} {c : Char} (h : ofUnit? unit = some c)
    (h' : ∀ low, ofUnits? unit low = none) (rest : List Nat) :
    ofUtf16 (unit :: rest) = c :: ofUtf16 rest := by
  cases rest with
  | nil => simp only [ofUtf16, h, Option.getD_some]
  | cons low rest =>
    rw [ofUtf16, h', h]
    rfl

theorem ofUtf16_utf16Char (c : Char) (rest : List Nat) :
    ofUtf16 (utf16Char c ++ rest) = c :: ofUtf16 rest := by
  rcases unitsOf_eq_one_or_two c with hone | htwo
  · obtain ⟨heq, hunit, hunits, -⟩ := utf16Char_of_one hone
    rw [heq, List.singleton_append, ofUtf16_cons hunit hunits]
  · obtain ⟨high, low, heq, hunits, -⟩ := utf16Char_of_two htwo
    rw [heq, List.cons_append, List.singleton_append, ofUtf16, hunits]

/-- A text is read back from its units. -/
theorem ofUtf16_utf16_append (cs : List Char) (rest : List Nat) :
    ofUtf16 (utf16 cs ++ rest) = cs ++ ofUtf16 rest := by
  induction cs with
  | nil => rfl
  | cons c cs ih => rw [utf16_cons, List.append_assoc, ofUtf16_utf16Char, ih, List.cons_append]

theorem ofUtf16_utf16 (cs : List Char) : ofUtf16 (utf16 cs) = cs := by
  have h := ofUtf16_utf16_append cs []
  rwa [List.append_nil, ofUtf16, List.append_nil] at h

/-! ## Where the first units end -/

/-- Where the first `n` units of a text end: between two characters, or within one of two units. -/
inductive Cut (n : Nat) (cs : List Char) : Prop
  | between (kept rest : List Char) (hcs : cs = kept ++ rest) (hn : n = units kept)
  | within (kept : List Char) (c : Char) (rest : List Char) (hcs : cs = kept ++ c :: rest)
      (hn : n = units kept + 1) (hc : unitsOf c = 2)

theorem Cut.cons {n : Nat} {cs : List Char} (h : Cut n cs) (c : Char) :
    Cut (unitsOf c + n) (c :: cs) := by
  cases h with
  | between kept rest hcs hn =>
    refine .between (c :: kept) rest ?_ ?_
    · rw [hcs, List.cons_append]
    · rw [hn, units]
  | within kept d rest hcs hn hd =>
    refine .within (c :: kept) d rest ?_ ?_ hd
    · rw [hcs, List.cons_append]
    · rw [hn, units, Nat.add_assoc]

theorem cut_of_le {n : Nat} {cs : List Char} (h : n ≤ units cs) : Cut n cs := by
  induction cs generalizing n with
  | nil => exact .between [] [] rfl (Nat.le_zero.mp h)
  | cons c cs ih =>
    rw [units] at h
    by_cases hc : unitsOf c ≤ n
    · have hcut := (ih (n := n - unitsOf c) (by omega)).cons c
      rwa [Nat.add_sub_cancel' hc] at hcut
    · -- there are not enough units for the first character
      rcases unitsOf_eq_one_or_two c with hone | htwo
      · exact .between [] (c :: cs) rfl (by rw [units]; omega)
      · by_cases hn : n = 0
        · exact .between [] (c :: cs) rfl hn
        · exact .within [] c cs rfl (by rw [units]; omega) htwo

/-! ## The first units -/

theorem firstUnits_nil (n : Nat) : firstUnits n [] = [] := by
  cases n <;> rfl

theorem firstUnits_cons (n : Nat) (c : Char) (cs : List Char) :
    firstUnits (unitsOf c + n) (c :: cs) = c :: firstUnits n cs := by
  rcases unitsOf_eq_one_or_two c with hone | htwo
  · rw [hone, Nat.add_comm 1 n]
    cases n <;> simp [firstUnits, hone]
  · rw [htwo, Nat.add_comm 2 n, firstUnits, if_neg (by omega)]

/-- Characters in front are kept as long as there are units for all of them. -/
theorem firstUnits_append (kept rest : List Char) (n : Nat) :
    firstUnits (units kept + n) (kept ++ rest) = kept ++ firstUnits n rest := by
  induction kept with
  | nil => rw [units, Nat.zero_add, List.nil_append, List.nil_append]
  | cons c kept ih => rw [units, Nat.add_assoc, List.cons_append, firstUnits_cons, ih, List.cons_append]

theorem firstUnits_between (kept rest : List Char) :
    firstUnits (units kept) (kept ++ rest) = kept := by
  have h := firstUnits_append kept rest 0
  rwa [Nat.add_zero, firstUnits, List.append_nil] at h

theorem firstUnits_within (kept rest : List Char) {c : Char} (hc : unitsOf c = 2) :
    firstUnits (units kept + 1) (kept ++ c :: rest) = kept ++ [halved] := by
  rw [firstUnits_append, firstUnits, if_neg (by omega)]

theorem firstUnits_of_le {n : Nat} {cs : List Char} (h : units cs ≤ n) : firstUnits n cs = cs := by
  have hall := firstUnits_append cs [] (n - units cs)
  rwa [Nat.add_sub_cancel' h, firstUnits_nil, List.append_nil] at hall

variable {n : Nat} {cs : List Char}

theorem units_firstUnits (h : n ≤ units cs) : units (firstUnits n cs) = n := by
  cases cut_of_le h with
  | between kept rest hcs hn => rw [hcs, hn, firstUnits_between]
  | within kept c rest hcs hn hc =>
    rw [hcs, hn, firstUnits_within kept rest hc, units_append, units, units, unitsOf_halved]

/-- What the first units of a text give is what they spell. -/
theorem firstUnits_eq_ofUtf16 (n : Nat) (cs : List Char) :
    firstUnits n cs = ofUtf16 ((utf16 cs).take n) := by
  rcases Nat.le_total n (units cs) with hle | hle
  · cases cut_of_le hle with
    | between kept rest hcs hn =>
      rw [hcs, hn, firstUnits_between, utf16_append, ← length_utf16, List.take_left, ofUtf16_utf16]
    | within kept c rest hcs hn hc =>
      obtain ⟨high, low, hpair, -, hhigh, -⟩ := utf16Char_of_two hc
      rw [hcs, hn, firstUnits_within kept rest hc, utf16_append, ← length_utf16,
        List.take_length_add_append, utf16_cons, hpair, ofUtf16_utf16_append]
      simp [ofUtf16, hhigh]
  · rw [firstUnits_of_le hle, List.take_of_length_le (by rwa [length_utf16]), ofUtf16_utf16]

/-! ## Whether a pair is split -/

theorem not_isTrail_head (cs : List Char) : (utf16 cs)[0]?.any isTrail = false := by
  cases cs with
  | nil => rfl
  | cons c cs =>
    rcases unitsOf_eq_one_or_two c with hone | htwo
    · obtain ⟨heq, -, -, htrail⟩ := utf16Char_of_one hone
      rw [utf16_cons, heq]
      exact htrail
    · obtain ⟨high, low, heq, -, -, htrail, -⟩ := utf16Char_of_two htwo
      rw [utf16_cons, heq]
      exact htrail

theorem splitsPair_between (kept rest : List Char) : splitsPair (units kept) (kept ++ rest) = false := by
  unfold splitsPair
  rw [utf16_append, ← length_utf16, List.getElem?_append_right (Nat.le_refl _), Nat.sub_self]
  exact not_isTrail_head rest

theorem splitsPair_within (kept rest : List Char) {c : Char} (hc : unitsOf c = 2) :
    splitsPair (units kept + 1) (kept ++ c :: rest) = true := by
  obtain ⟨high, low, hpair, -, -, -, htrail⟩ := utf16Char_of_two hc
  unfold splitsPair
  rw [utf16_append, ← length_utf16, List.getElem?_append_right (Nat.le_add_right _ _),
    Nat.add_sub_cancel_left, utf16_cons, hpair]
  exact htrail

/-- Where a pair is split, a replacement character stands for its character. -/
theorem exists_of_splitsPair (h : n ≤ units cs) (hsplit : splitsPair n cs = true) :
    ∃ kept c, kept ++ [c] <+: cs ∧ units kept + 1 = n ∧ unitsOf c = 2 ∧
      firstUnits n cs = kept ++ [halved] := by
  cases cut_of_le h with
  | between kept rest hcs hn =>
    rw [hcs, hn, splitsPair_between] at hsplit
    cases hsplit
  | within kept c rest hcs hn hc =>
    refine ⟨kept, c, ⟨rest, ?_⟩, hn.symm, hc, ?_⟩
    · rw [hcs, List.append_assoc, List.singleton_append]
    · rw [hcs, hn, firstUnits_within kept rest hc]

/-- The first units are the start of the text just if they split no pair. -/
theorem firstUnits_prefix_iff (h : n ≤ units cs) :
    firstUnits n cs <+: cs ↔ splitsPair n cs = false := by
  cases cut_of_le h with
  | between kept rest hcs hn =>
    rw [hcs, hn, firstUnits_between, splitsPair_between]
    exact iff_of_true (List.prefix_append kept rest) rfl
  | within kept c rest hcs hn hc =>
    rw [hcs, hn, firstUnits_within kept rest hc, splitsPair_within kept rest hc,
      List.prefix_append_right_inj, List.cons_prefix_cons]
    refine iff_of_false ?_ Bool.noConfusion
    -- the replacement character takes one unit, so it is not the one that was cut
    rintro ⟨rfl, -⟩
    rw [unitsOf_halved] at hc
    cases hc

end BuildFeed.Text
