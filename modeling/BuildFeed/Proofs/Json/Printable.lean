-- A text of JSON has no control character in it: strings escape theirs, and everything else is made
-- of signs, letters and digits. So it stands on one line.
import BuildFeed.Proofs.Json.Reading
import BuildFeed.Proofs.Number.Text

namespace BuildFeed.Json

/-- No control characters. -/
def Printable (cs : List Char) : Prop := ∀ c ∈ cs, 0x20 ≤ c.toNat

namespace Printable

variable {cs ds : List Char}

theorem of_all (h : cs.all (fun c => 0x20 ≤ c.toNat) = true) : Printable cs := by
  intro c hc
  exact of_decide_eq_true (List.all_eq_true.mp h c hc)

theorem cons {c : Char} (h : 0x20 ≤ c.toNat) (h' : Printable cs) : Printable (c :: cs) :=
  List.forall_mem_cons.mpr ⟨h, h'⟩

theorem append (h : Printable cs) (h' : Printable ds) : Printable (cs ++ ds) :=
  List.forall_mem_append.mpr ⟨h, h'⟩

theorem intercalate {lines : List (List Char)} (h : Printable cs) (h' : ∀ l ∈ lines, Printable l) :
    Printable (cs.intercalate lines) := by
  induction lines with
  | nil =>
    intro c hc
    cases hc
  | cons l rest ih =>
    obtain ⟨hl, hrest⟩ := List.forall_mem_cons.mp h'
    cases rest with
    | nil =>
      rw [List.intercalate_singleton]
      exact hl
    | cons l' rest =>
      rw [List.intercalate_cons_cons]
      exact (hl.append h).append (ih hrest)

end Printable

theorem printable_escaped (c : Char) : Printable (escaped c) := by
  have hdigit : ∀ n < 16, 0x20 ≤ (hexDigit n).toNat := by decide
  rcases escaped_cases c with ⟨letter, hletter, heq⟩ | ⟨hcontrol, heq⟩ | ⟨-, -, hcontrol, heq⟩
  · have hprintable : 0x20 ≤ letter.toNat := by
      unfold ofEscape? at hletter
      split at hletter
      case h_9 => cases hletter
      all_goals decide
    rw [heq]
    exact .cons (by decide) (.cons hprintable (by simp [Printable]))
  · have hhigh := hdigit (c.toNat / 16) (by omega)
    have hlow := hdigit (c.toNat % 16) (by omega)
    rw [heq]
    simp [Printable, hhigh, hlow]
  · rw [heq]
    simp only [Printable, List.mem_singleton, forall_eq]
    omega

theorem printable_quoted (s : String) : Printable (quoted s) := by
  have hbody : Printable (s.toList.flatMap escaped) := by
    intro c hc
    obtain ⟨d, -, hd⟩ := List.mem_flatMap.mp hc
    exact printable_escaped d c hd
  exact .cons (by decide) (hbody.append (by simp [Printable]))

theorem printable_numberChars (x : Number) : Printable (numberChars x) := by
  have hletter : ∀ c, Number.isLetter c = true → 0x20 ≤ c.toNat := by
    intro c hc
    unfold Number.isLetter at hc
    rcases Bool.or_eq_true_iff.mp hc with hdigit | hword
    · have hlow : '0'.toNat ≤ c.toNat := (Char.isDigit_iff_toNat.mp hdigit).1
      have hzero : '0'.toNat = 0x30 := rfl
      omega
    · have hall : Printable "+-.eNaInfity".toList := .of_all (by decide)
      exact hall c (List.contains_iff_mem.mp hword)
  have hnull : Printable "null".toList := .of_all (by decide)
  cases x with
  | finite steps => exact fun c hc => hletter c (Number.lettered_chars (.finite steps) c hc)
  | nan => exact hnull
  | infinite _ => exact hnull

mutual

theorem printable_chars (j : Json) : Printable j.chars := by
  cases j with
  | null =>
    rw [chars]
    exact printable_numberChars .nan
  | bool b =>
    cases b with
    | true => simp [chars, Printable]
    | false => simp [chars, Printable]
  | number x =>
    rw [chars]
    exact printable_numberChars x
  | string s =>
    rw [chars]
    exact printable_quoted s
  | array items =>
    have hcomma : Printable [','] := by simp [Printable]
    have hitems := hcomma.intercalate (printable_itemChars items)
    rw [chars]
    exact .cons (by decide) (hitems.append (by simp [Printable]))
  | object fields =>
    have hcomma : Printable [','] := by simp [Printable]
    have hfields := hcomma.intercalate (printable_fieldChars fields)
    rw [chars]
    exact .cons (by decide) (hfields.append (by simp [Printable]))

theorem printable_itemChars (items : List Json) : ∀ l ∈ itemChars items, Printable l := by
  cases items with
  | nil => simp [itemChars]
  | cons x xs =>
    rw [itemChars]
    exact List.forall_mem_cons.mpr ⟨printable_chars x, printable_itemChars xs⟩

theorem printable_fieldChars (fields : List (String × Json)) :
    ∀ l ∈ fieldChars fields, Printable l := by
  cases fields with
  | nil => simp [fieldChars]
  | cons e rest =>
    obtain ⟨key, x⟩ := e
    have hvalue : Printable (':' :: x.chars) := .cons (by decide) (printable_chars x)
    rw [fieldChars]
    exact List.forall_mem_cons.mpr
      ⟨(printable_quoted key).append hvalue, printable_fieldChars rest⟩

end

end BuildFeed.Json
