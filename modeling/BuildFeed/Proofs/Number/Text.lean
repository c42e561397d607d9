-- What the text of a number is made of: digits, signs, a point and the letters of a few words.
import Mathlib.Data.List.Basic
import BuildFeed.Number.Text

namespace BuildFeed.Number

/-- Whether a character can stand in the text of a number. -/
def isLetter (c : Char) : Bool := c.isDigit || "+-.eNaInfity".toList.contains c

/-- Nothing but characters of numbers. -/
def Lettered (cs : List Char) : Prop := ∀ c ∈ cs, isLetter c = true

namespace Lettered

variable {cs ds : List Char}

theorem of_all (h : cs.all isLetter = true) : Lettered cs := List.all_eq_true.mp h

theorem append (h : Lettered cs) (h' : Lettered ds) : Lettered (cs ++ ds) := by
  intro c hc
  rcases List.mem_append.mp hc with hc | hc
  · exact h c hc
  · exact h' c hc

theorem cons {c : Char} (h : isLetter c = true) (h' : Lettered cs) : Lettered (c :: cs) := by
  intro d hd
  rcases List.mem_cons.mp hd with rfl | hd
  · exact h
  · exact h' d hd

theorem of_subset (h : Lettered ds) (hs : cs ⊆ ds) : Lettered cs := fun c hc => h c (hs hc)

theorem zeros (n : Nat) : Lettered (List.replicate n '0') := by
  intro c hc
  rw [List.eq_of_mem_replicate hc]
  decide

theorem digitChars (n : Nat) : Lettered (digitChars n) := by
  intro c hc
  unfold isLetter
  rw [Nat.isDigit_of_mem_toDigits (by decide) (by decide) hc, Bool.true_or]

/-- A point behind the first digit adds no other characters. -/
theorem mantissa (cs : List Char) :
    Lettered cs → Lettered (match cs with
      | [] => []
      | [c] => [c]
      | c :: rest => c :: '.' :: rest) := by
  intro h
  rcases cs with _ | ⟨c, _ | ⟨d, rest⟩⟩
  · exact h
  · exact h
  · have hc : isLetter c = true := h c List.mem_cons_self
    exact .cons hc (.cons (by decide) (h.of_subset (List.subset_cons_self _ _)))

end Lettered

theorem Decimal.lettered_chars (d : Decimal) : Lettered d.chars := by
  have hdigits := Lettered.digitChars d.digits
  unfold Decimal.chars
  simp only
  split
  · exact hdigits.append (.zeros _)
  · split
    · exact (hdigits.of_subset (List.take_subset _ _)).append
        (.cons (by decide) (hdigits.of_subset (List.drop_subset _ _)))
    · split
      · exact .cons (by decide) (.cons (by decide) ((Lettered.zeros _).append hdigits))
      · refine (Lettered.mantissa _ hdigits).append
          (.cons (c := 'e') (by decide) (.cons ?_ (.digitChars _)))
        split <;> decide

theorem lettered_intChars (n : Int) : Lettered (intChars n) := by
  unfold intChars
  split
  · exact .cons (by decide) (.digitChars _)
  · exact .digitChars _

theorem lettered_signed (steps : Int) : Lettered (chars.signed steps) := by
  unfold chars.signed
  simp only
  split
  · exact .cons (by decide) (Decimal.lettered_chars _)
  · exact Decimal.lettered_chars _

/-- The text of a number has no other characters. -/
theorem lettered_chars (x : Number) : Lettered x.chars := by
  unfold chars
  split
  · exact .of_all (by decide)
  · exact .of_all (by decide)
  · exact .of_all (by decide)
  · split
    · split
      · exact lettered_intChars _
      · exact lettered_signed _
    · exact lettered_signed _

end BuildFeed.Number
