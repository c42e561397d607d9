-- Percent-encoding can be read back. Where what stands for itself is ASCII and no percent sign,
-- each character gives the bytes of its UTF-8 form again, so no two texts have the same encoding.
import BuildFeed.Text.Percent

namespace BuildFeed.Text

/-! ## Bytes -/

theorem upperHexValue?_upperHexDigit {n : Nat} (h : n < 16) :
    upperHexValue? (upperHexDigit n) = some n := by
  revert n
  decide

/-- A percent sign and two digits stand for the byte that they were made of. -/
theorem percentBytes?_percentByte (b : UInt8) (rest : List Char) :
    percentBytes? (percentByte b ++ rest) = (percentBytes? rest).map (b :: ·) := by
  have hb : b.toNat < 256 := b.toNat_lt
  have hhigh := upperHexValue?_upperHexDigit (n := b.toNat / 16) (by omega)
  have hlow := upperHexValue?_upperHexDigit (n := b.toNat % 16) (by omega)
  have hbyte : UInt8.ofNat (16 * (b.toNat / 16) + b.toNat % 16) = b := by
    rw [Nat.div_add_mod]
    exact UInt8.ofNat_toNat
  simp only [percentByte, List.cons_append, List.nil_append, percentBytes?, hhigh, hlow, hbyte]

theorem percentBytes?_flatMap (bytes : List UInt8) (rest : List Char) :
    percentBytes? (bytes.flatMap percentByte ++ rest) =
      (percentBytes? rest).map (bytes ++ ·) := by
  induction bytes with
  | nil => simp
  | cons b bytes ih =>
    rw [List.flatMap_cons, List.append_assoc, percentBytes?_percentByte, ih, Option.map_map]
    rfl

/-! ## Characters -/

/-- What stands for itself is ASCII and no percent sign. -/
def Readable (kept : Char → Bool) : Prop := ∀ c, kept c = true → c.toNat < 0x80 ∧ c ≠ '%'

variable {kept : Char → Bool}

theorem toNat_lt_of_isAlphanum {c : Char} (h : c.isAlphanum = true) : c.toNat < 0x80 := by
  rcases Bool.or_eq_true_iff.mp h with halpha | hdigit
  · rcases Bool.or_eq_true_iff.mp halpha with hupper | hlower
    · have hle : c.toNat ≤ 0x5a := (of_decide_eq_true hupper).2
      omega
    · have hle : c.toNat ≤ 0x7a := of_decide_eq_true (Bool.and_eq_true_iff.mp hlower).2
      omega
  · have hle : c.toNat ≤ 0x39 := of_decide_eq_true (Bool.and_eq_true_iff.mp hdigit).2
    omega

theorem toNat_lt_of_isUnreserved {c : Char} (h : isUnreserved c = true) : c.toNat < 0x80 := by
  simp only [isUnreserved, Bool.or_eq_true, beq_iff_eq] at h
  rcases h with (((h | rfl) | rfl) | rfl) | rfl
  · exact toNat_lt_of_isAlphanum h
  all_goals decide

theorem utf8EncodeChar_of_lt {c : Char} (h : c.toNat < 0x80) :
    String.utf8EncodeChar c = [UInt8.ofNat c.toNat] := by
  have hle : c.val.toNat ≤ 0x7f := Nat.le_of_lt_succ h
  unfold String.utf8EncodeChar
  exact if_pos hle

theorem percentBytes?_of_kept {c : Char} (hc : c.toNat < 0x80 ∧ c ≠ '%') (rest : List Char) :
    percentBytes? (c :: rest) = (percentBytes? rest).map (UInt8.ofNat c.toNat :: ·) := by
  obtain ⟨hlt, hne⟩ := hc
  have hnot : ¬ (c = '%' ∨ 0x80 ≤ c.toNat) := by
    rintro (heq | hle)
    · exact hne heq
    · omega
  rw [percentBytes?]
  · rw [if_neg hnot]
  · exact fun high low rest' heq _ => hne heq

theorem percentBytes?_percentChar (hk : Readable kept) (c : Char) (rest : List Char) :
    percentBytes? (percentChar kept c ++ rest) =
      (percentBytes? rest).map (String.utf8EncodeChar c ++ ·) := by
  unfold percentChar
  split
  · rename_i hkept
    rw [List.singleton_append, percentBytes?_of_kept (hk c hkept),
      utf8EncodeChar_of_lt (hk c hkept).1]
    rfl
  · exact percentBytes?_flatMap _ rest

theorem percentBytes?_percentEncode (hk : Readable kept) (cs : List Char) :
    percentBytes? (percentEncode kept cs) = some (cs.flatMap String.utf8EncodeChar) := by
  unfold percentEncode
  induction cs with
  | nil => rfl
  | cons c cs ih =>
    rw [List.flatMap_cons, percentBytes?_percentChar hk, ih]
    rfl

/-! ## Texts -/

theorem percentDecode?_percentEncode (hk : Readable kept) (cs : List Char) :
    percentDecode? (percentEncode kept cs) = some cs := by
  unfold percentDecode?
  rw [percentBytes?_percentEncode hk]
  have hdecoded : (cs.flatMap String.utf8EncodeChar).toByteArray.utf8Decode? = some cs.toArray :=
    List.utf8Decode?_utf8Encode
  simp only [hdecoded, Option.map_some]

theorem percentEncode_injective (hk : Readable kept) {cs ds : List Char}
    (h : percentEncode kept cs = percentEncode kept ds) : cs = ds := by
  have hread := congrArg percentDecode? h
  rw [percentDecode?_percentEncode hk, percentDecode?_percentEncode hk] at hread
  exact Option.some.inj hread

theorem isAlphanum_upperHexDigit {n : Nat} (h : n < 16) : (upperHexDigit n).isAlphanum = true := by
  revert n
  decide

/-- In an encoding there are characters that stand for themselves, percent signs and digits. -/
theorem mem_percentEncode {cs : List Char} {c : Char} (h : c ∈ percentEncode kept cs) :
    kept c = true ∨ c = '%' ∨ c.isAlphanum = true := by
  obtain ⟨d, -, hd⟩ := List.mem_flatMap.mp h
  unfold percentChar at hd
  split at hd
  · rename_i hkept
    rw [List.mem_singleton.mp hd]
    exact .inl hkept
  · obtain ⟨b, -, hb⟩ := List.mem_flatMap.mp hd
    have hlt : b.toNat < 256 := b.toNat_lt
    simp only [percentByte, List.mem_cons, List.not_mem_nil, or_false] at hb
    rcases hb with rfl | rfl | rfl
    · exact .inr (.inl rfl)
    · exact .inr (.inr (isAlphanum_upperHexDigit (by omega)))
    · exact .inr (.inr (isAlphanum_upperHexDigit (by omega)))

/-! ## What an encoding is made of -/

/-- The upper-case hexadecimal digits. -/
def upperHexDigits : List Char := "0123456789ABCDEF".toList

/-- A text made of letters and of percent signs with two upper-case digits after each. -/
inductive Encoded (letters : List Char) : List Char → Prop
  | nil : Encoded letters []
  | letter {c : Char} {rest : List Char} (hc : c ∈ letters) (h : Encoded letters rest) :
      Encoded letters (c :: rest)
  | byte {high low : Char} {rest : List Char} (hhigh : high ∈ upperHexDigits)
      (hlow : low ∈ upperHexDigits) (h : Encoded letters rest) :
      Encoded letters ('%' :: high :: low :: rest)

theorem upperHexDigit_mem {n : Nat} (h : n < 16) : upperHexDigit n ∈ upperHexDigits := by
  revert n
  decide

theorem Encoded.percentByte {letters rest : List Char} (h : Encoded letters rest) (b : UInt8) :
    Encoded letters (percentByte b ++ rest) := by
  have hb : b.toNat < 256 := b.toNat_lt
  apply Encoded.byte
  · apply upperHexDigit_mem
    omega
  · apply upperHexDigit_mem
    omega
  · exact h

theorem Encoded.percentBytes {letters rest : List Char} (h : Encoded letters rest)
    (bytes : List UInt8) : Encoded letters (bytes.flatMap Text.percentByte ++ rest) := by
  induction bytes with
  | nil => exact h
  | cons b bytes ih =>
    rw [List.flatMap_cons, List.append_assoc]
    exact ih.percentByte b

/-- Where what stands for itself is among the letters, an encoding is made of them and of encoded
bytes. -/
theorem encoded_percentEncode {letters : List Char} (hk : ∀ c, kept c = true → c ∈ letters)
    (cs : List Char) : Encoded letters (percentEncode kept cs) := by
  unfold percentEncode
  induction cs with
  | nil => exact .nil
  | cons c cs ih =>
    rw [List.flatMap_cons]
    unfold percentChar
    split
    · rename_i hkept
      exact .letter (hk c hkept) ih
    · exact ih.percentBytes _

end BuildFeed.Text
