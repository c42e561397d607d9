-- What is written as JSON can be read. The reader finds every value again, with the same fields in
-- the same order and the same items; each number is the one that its digits spell, which for an
-- integer of up to 53 bits is the number itself.
import BuildFeed.Proofs.Json.Numerals

namespace BuildFeed.Json

/-! ## Strings -/

/-- How a character is written: with a letter behind a backslash, as a control character in four
digits, or as it stands. -/
theorem escaped_cases (c : Char) :
    (∃ letter, ofEscape? letter = some c ∧ escaped c = ['\\', letter]) ∨
    (c.toNat < 0x20 ∧
      escaped c = ['\\', 'u', '0', '0', hexDigit (c.toNat / 16), hexDigit (c.toNat % 16)]) ∨
    (c ≠ '"' ∧ c ≠ '\\' ∧ ¬ c.toNat < 0x20 ∧ escaped c = [c]) := by
  by_cases hletter : c ∈ ['"', '\\', '\x08', '\t', '\n', '\x0c', '\r']
  · left
    simp only [List.mem_cons, List.not_mem_nil, or_false] at hletter
    rcases hletter with rfl | rfl | rfl | rfl | rfl | rfl | rfl
    · exact ⟨'"', rfl, rfl⟩
    · exact ⟨'\\', rfl, rfl⟩
    · exact ⟨'b', rfl, rfl⟩
    · exact ⟨'t', rfl, rfl⟩
    · exact ⟨'n', rfl, rfl⟩
    · exact ⟨'f', rfl, rfl⟩
    · exact ⟨'r', rfl, rfl⟩
  · right
    simp only [List.mem_cons, List.not_mem_nil, or_false, not_or] at hletter
    by_cases hcontrol : c.toNat < 0x20
    · left
      exact ⟨hcontrol, by simp [escaped, hletter, hcontrol]⟩
    · right
      exact ⟨hletter.1, hletter.2.1, hcontrol, by simp [escaped, hletter, hcontrol]⟩

theorem digitValue?_hexDigit {n : Nat} (h : n < 16) : Number.digitValue? (hexDigit n) = some n := by
  revert n
  decide

/-- Four digits of an escape spell the control character that they were made of. -/
theorem unit?_hexDigits {n : Nat} (h : n < 0x20) (rest : List Char) :
    unit? ('0' :: '0' :: hexDigit (n / 16) :: hexDigit (n % 16) :: rest) = some (n, rest) := by
  have hhigh := digitValue?_hexDigit (n := n / 16) (by omega)
  have hlow := digitValue?_hexDigit (n := n % 16) (by omega)
  have hzero : Number.digitValue? '0' = some 0 := by decide
  have hlarge : n / 16 < 16 := by omega
  have hsmall : n % 16 < 16 := by omega
  have hn : 16 * (n / 16) + n % 16 = n := by omega
  unfold unit?
  simp [Number.ofDigits?, Number.digitsAfter?, hzero, hhigh, hlow, hlarge, hsmall, hn]

/-- A control character is no half of a character. -/
theorem escape?_of_unit? {cs rest : List Char} {n : Nat} (h : n < 0x20)
    (hunit : unit? cs = some (n, rest)) : escape? ('u' :: cs) = some (Char.ofNat n, rest) := by
  have hdouble : ∀ low, ofUnits? n low = none := by
    intro low
    unfold ofUnits?
    rw [if_neg (by omega)]
  have hsingle : ofUnit? n = some (Char.ofNat n) := by
    unfold ofUnit?
    rw [if_neg (by omega)]
  simp [escape?, hunit, hdouble, hsingle]

theorem escape?_of_ofEscape? {letter c : Char} (h : ofEscape? letter = some c) (rest : List Char) :
    escape? (letter :: rest) = some (c, rest) := by
  have hu : letter ≠ 'u' := by
    rintro rfl
    cases h
  unfold escape?
  split
  · rename_i heq
    cases heq
    exact absurd rfl hu
  · rename_i heq
    cases heq
    rw [h]
    rfl
  · rename_i heq
    cases heq

theorem stringFrom?_of_escape? {cs rest : List Char} {c : Char} (fuel : Nat)
    (h : escape? cs = some (c, rest)) :
    stringFrom? (fuel + 1) ('\\' :: cs) =
      (stringFrom? fuel rest).map (fun (s, rest) => (c :: s, rest)) := by
  rw [stringFrom?, if_neg (by decide), if_pos rfl, h]

/-- A written character is read as itself. -/
theorem stringFrom?_escaped (fuel : Nat) (c : Char) (rest : List Char) :
    stringFrom? (fuel + 1) (escaped c ++ rest) =
      (stringFrom? fuel rest).map (fun (s, rest) => (c :: s, rest)) := by
  rcases escaped_cases c with ⟨letter, hletter, heq⟩ | ⟨hcontrol, heq⟩ |
      ⟨hquote, hbackslash, hcontrol, heq⟩
  · rw [heq]
    exact stringFrom?_of_escape? fuel (escape?_of_ofEscape? hletter rest)
  · have hread := escape?_of_unit? hcontrol (unit?_hexDigits hcontrol rest)
    rw [Char.ofNat_toNat] at hread
    rw [heq]
    exact stringFrom?_of_escape? fuel hread
  · rw [heq, List.singleton_append, stringFrom?, if_neg hquote, if_neg hbackslash, if_neg hcontrol]

theorem stringFrom?_flatMap (fuel : Nat) (cs rest : List Char)
    (h : (cs.flatMap escaped).length < fuel) :
    stringFrom? fuel (cs.flatMap escaped ++ '"' :: rest) = some (cs, rest) := by
  induction cs generalizing fuel with
  | nil =>
    obtain ⟨fuel, rfl⟩ := Nat.exists_eq_add_one.mpr h
    rfl
  | cons c cs ih =>
    obtain ⟨fuel, rfl⟩ := Nat.exists_eq_add_one.mpr (Nat.zero_lt_of_lt h)
    have hne : 0 < (escaped c).length := by
      rcases escaped_cases c with ⟨letter, -, heq⟩ | ⟨-, heq⟩ | ⟨-, -, -, heq⟩
      · simp [heq]
      · simp [heq]
      · simp [heq]
    rw [List.flatMap_cons, List.length_append] at h
    rw [List.flatMap_cons, List.append_assoc, stringFrom?_escaped, ih _ (by omega)]
    rfl

/-! ## Heads of values -/

theorem unspaced_cons {c : Char} (h : isSpace c = false) (cs : List Char) :
    unspaced (c :: cs) = c :: cs := by
  simp [unspaced, h]

/-- What no value starts with. -/
def isMark (c : Char) : Bool := isSpace c || c == ']' || c == '}' || c == ',' || c == ':'

/-- What a number starts with. -/
theorem head_of_chars_finite (steps : Int) :
    ∃ c cs, (Number.finite steps).chars = c :: cs ∧ (c = '-' ∨ c.isDigit = true) := by
  obtain ⟨cs, ⟨whole, fraction, exponent, rfl, hwhole, -, -⟩, heq | heq⟩ := isUnsigned_chars steps
  · obtain ⟨hne, hdigits⟩ := isDigit_of_isWhole hwhole
    obtain ⟨c, rest, rfl⟩ := List.exists_cons_of_ne_nil hne
    exact ⟨c, rest ++ fraction ++ exponent, heq, .inr (hdigits c List.mem_cons_self)⟩
  · exact ⟨'-', _, heq, .inl rfl⟩

theorem not_isMark_of_isDigit {c : Char} (h : c = '-' ∨ c.isDigit = true) : isMark c = false := by
  rcases h with rfl | h
  · decide
  · have hne : ∀ d, d.isDigit = false → c ≠ d := fun d hd => Number.ne_of_isDigit h hd
    simp [isMark, isSpace, hne]

theorem head_of_chars (j : Json) : ∃ c cs, j.chars = c :: cs ∧ isMark c = false := by
  cases j with
  | null => exact ⟨'n', _, by rw [chars]; rfl, by decide⟩
  | bool b =>
    cases b with
    | true => exact ⟨'t', _, by rw [chars]; rfl, by decide⟩
    | false => exact ⟨'f', _, by rw [chars]; rfl, by decide⟩
  | number x =>
    rw [chars]
    cases x with
    | finite steps =>
      obtain ⟨c, cs, heq, hc⟩ := head_of_chars_finite steps
      exact ⟨c, cs, heq, not_isMark_of_isDigit hc⟩
    | nan => exact ⟨'n', _, rfl, by decide⟩
    | infinite _ => exact ⟨'n', _, rfl, by decide⟩
  | string s => exact ⟨'"', _, by rw [chars]; rfl, by decide⟩
  | array items => exact ⟨'[', _, by rw [chars], by decide⟩
  | object fields => exact ⟨'{', _, by rw [chars], by decide⟩

/-! ## One value -/

theorem value?_string {fuel : Nat} (s : String) (rest : List Char) (h : (quoted s).length ≤ fuel) :
    value? (fuel + 1) (quoted s ++ rest) = some (.string s, rest) := by
  have hlength : (s.toList.flatMap escaped).length < fuel := by
    simp only [quoted, List.length_cons, List.length_append] at h
    omega
  have hread := stringFrom?_flatMap fuel s.toList rest hlength
  have hquoted : quoted s ++ rest = '"' :: (s.toList.flatMap escaped ++ '"' :: rest) := by
    simp [quoted]
  rw [hquoted, value?, unspaced_cons (by decide)]
  simp only [hread, Option.map_some, String.ofList_toList]

theorem word?_null (rest : List Char) : word? ("null".toList ++ rest) = some (.null, rest) := rfl

theorem word?_bool (b : Bool) (rest : List Char) :
    word? (chars (.bool b) ++ rest) = some (.bool b, rest) := by
  cases b with
  | true => rw [chars]; rfl
  | false => rw [chars]; rfl

theorem isPrefixOf?_of_ne {a c : Char} (h : c ≠ a) (as cs : List Char) :
    (a :: as).isPrefixOf? (c :: cs) = none := by
  change (if a == c then as.isPrefixOf? cs else none) = none
  rw [if_neg (by simpa using h.symm)]

theorem word?_of_ne {c : Char} (hn : c ≠ 'n') (ht : c ≠ 't') (hf : c ≠ 'f') (cs : List Char) :
    word? (c :: cs) = none := by
  have hnull : "null".toList = ['n', 'u', 'l', 'l'] := rfl
  have htrue : "true".toList = ['t', 'r', 'u', 'e'] := rfl
  have hfalse : "false".toList = ['f', 'a', 'l', 's', 'e'] := rfl
  simp [word?, words, hnull, htrue, hfalse, isPrefixOf?_of_ne hn, isPrefixOf?_of_ne ht,
    isPrefixOf?_of_ne hf]

/-- What starts with no sign of a string, an array or a record is a word or a number. -/
theorem value?_of_ne {c : Char} (hspace : isSpace c = false) (hquote : c ≠ '"') (harray : c ≠ '[')
    (hobject : c ≠ '{') (fuel : Nat) (cs : List Char) :
    value? (fuel + 1) (c :: cs) = (word? (c :: cs)).or (number? (c :: cs)) := by
  rw [value?, unspaced_cons hspace]
  split
  · rename_i heq
    cases heq
    exact absurd rfl hquote
  · rename_i heq
    cases heq
    exact absurd rfl harray
  · rename_i heq
    cases heq
    exact absurd rfl hobject
  · rfl

theorem value?_of_word? {cs rest : List Char} {j : Json} (fuel : Nat)
    (hhead : ∃ c ds, cs = c :: ds ∧ c ∈ ['n', 't', 'f']) (h : word? cs = some (j, rest)) :
    value? (fuel + 1) cs = some (j, rest) := by
  obtain ⟨c, ds, rfl, hc⟩ := hhead
  have hapart : ∀ d ∈ ['n', 't', 'f'], isSpace d = false ∧ d ≠ '"' ∧ d ≠ '[' ∧ d ≠ '{' := by
    simp [isSpace]
  obtain ⟨hspace, hquote, harray, hobject⟩ := hapart c hc
  rw [value?_of_ne hspace hquote harray hobject, h]
  rfl

theorem value?_finite (fuel : Nat) (steps : Int) {rest : List Char} (hrest : EndsNumber rest) :
    value? (fuel + 1) ((Number.finite steps).chars ++ rest) =
      some (.number (Number.ofSigned (Number.finite steps).chars), rest) := by
  have hread := number?_chars steps hrest
  obtain ⟨c, cs, heq, hc⟩ := head_of_chars_finite steps
  have hne : ∀ d, d ≠ '-' → d.isDigit = false → c ≠ d := by
    intro d hminus hd
    rcases hc with rfl | hc
    · exact hminus.symm
    · exact Number.ne_of_isDigit hc hd
  have hspace : isSpace c = false := by
    have hmark := not_isMark_of_isDigit hc
    simp only [isMark, Bool.or_eq_false_iff] at hmark
    exact hmark.1.1.1.1
  rw [heq] at hread ⊢
  rw [List.cons_append] at hread ⊢
  rw [value?_of_ne hspace (hne _ (by decide) rfl) (hne _ (by decide) rfl) (hne _ (by decide) rfl),
    word?_of_ne (hne _ (by decide) rfl) (hne _ (by decide) rfl) (hne _ (by decide) rfl), hread]
  rfl

/-! ## Items and fields -/

variable {fuel : Nat} {cs rest rest' : List Char} {x : Json}

theorem items?_last (h : value? fuel cs = some (x, ']' :: rest)) :
    items? (fuel + 1) cs = some ([x], rest) := by
  rw [items?, h]
  rfl

theorem items?_more {items : List Json} (h : value? fuel cs = some (x, ',' :: rest))
    (hmore : items? fuel rest = some (items, rest')) :
    items? (fuel + 1) cs = some (x :: items, rest') := by
  rw [items?, h]
  simp only [unspaced_cons (c := ',') (by decide), hmore, Option.map_some]

theorem fields?_last {key : List Char} (hkey : stringFrom? fuel cs = some (key, ':' :: rest))
    (h : value? fuel rest = some (x, '}' :: rest')) :
    fields? (fuel + 1) ('"' :: cs) = some ([(String.ofList key, x)], rest') := by
  rw [fields?, unspaced_cons (by decide)]
  simp only [hkey, unspaced_cons (c := ':') (by decide), h]
  rfl

theorem fields?_more {key rest'' : List Char} {fields : List (String × Json)}
    (hkey : stringFrom? fuel cs = some (key, ':' :: rest))
    (h : value? fuel rest = some (x, ',' :: rest'))
    (hmore : fields? fuel rest' = some (fields, rest'')) :
    fields? (fuel + 1) ('"' :: cs) = some ((String.ofList key, x) :: fields, rest'') := by
  rw [fields?, unspaced_cons (by decide)]
  simp only [hkey, unspaced_cons (c := ':') (by decide), h, unspaced_cons (c := ',') (by decide), hmore,
    Option.map_some]

theorem value?_empty_array (fuel : Nat) (rest : List Char) :
    value? (fuel + 1) ('[' :: ']' :: rest) = some (.array [], rest) := by
  rw [value?, unspaced_cons (by decide)]
  rfl

theorem value?_empty_object (fuel : Nat) (rest : List Char) :
    value? (fuel + 1) ('{' :: '}' :: rest) = some (.object [], rest) := by
  rw [value?, unspaced_cons (by decide)]
  rfl

theorem value?_array {items : List Json} (hhead : ∃ c ds, cs = c :: ds ∧ isMark c = false)
    (h : items? fuel cs = some (items, rest)) :
    value? (fuel + 1) ('[' :: cs) = some (.array items, rest) := by
  obtain ⟨c, ds, rfl, hc⟩ := hhead
  simp only [isMark, Bool.or_eq_false_iff, beq_eq_false_iff_ne] at hc
  rw [value?, unspaced_cons (by decide)]
  simp only [unspaced_cons hc.1.1.1.1, h, Option.map_some]
  split
  · rename_i heq
    cases heq
    exact absurd rfl hc.1.1.1.2
  · rfl

theorem value?_object {fields : List (String × Json)} (hhead : ∃ ds, cs = '"' :: ds)
    (h : fields? fuel cs = some (fields, rest)) :
    value? (fuel + 1) ('{' :: cs) = some (.object fields, rest) := by
  obtain ⟨ds, rfl⟩ := hhead
  rw [value?, unspaced_cons (by decide)]
  simp only [unspaced_cons (c := '"') (by decide), h, Option.map_some]
  rfl

/-! ## Whole values -/

mutual

/-- What a text of JSON spells: each number as its digits have it, and what is not finite as null. -/
def spelled : Json → Json
  | .null => .null
  | .bool b => .bool b
  | .number (.finite steps) => .number (Number.ofSigned (Number.finite steps).chars)
  | .number _ => .null
  | .string s => .string s
  | .array items => .array (spelledItems items)
  | .object fields => .object (spelledFields fields)

def spelledItems : List Json → List Json
  | [] => []
  | x :: xs => spelled x :: spelledItems xs

def spelledFields : List (String × Json) → List (String × Json)
  | [] => []
  | (key, x) :: xs => (key, spelled x) :: spelledFields xs

end

theorem endsNumber_cons {c : Char} (h : isNumberLetter c = false) (rest : List Char) :
    EndsNumber (c :: rest) := by
  intro d hd
  cases hd
  exact h

theorem length_chars_pos (j : Json) : 0 < j.chars.length := by
  obtain ⟨c, cs, heq, -⟩ := head_of_chars j
  rw [heq]
  exact Nat.succ_pos _

/-- The first item of an array, and what stands behind it. -/
theorem joined_itemChars (x : Json) (xs : List Json) :
    [','].intercalate (itemChars (x :: xs)) =
      match xs with
      | [] => x.chars
      | y :: ys => x.chars ++ ',' :: [','].intercalate (itemChars (y :: ys)) := by
  cases xs with
  | nil => simp [itemChars]
  | cons y ys => simp [itemChars, List.intercalate_cons_cons]

theorem joined_fieldChars (key : String) (x : Json) (xs : List (String × Json)) :
    [','].intercalate (fieldChars ((key, x) :: xs)) =
      match xs with
      | [] => quoted key ++ ':' :: x.chars
      | (key', y) :: ys => quoted key ++ ':' :: x.chars ++
          ',' :: [','].intercalate (fieldChars ((key', y) :: ys)) := by
  cases xs with
  | nil => simp [fieldChars]
  | cons e ys => simp [fieldChars, List.intercalate_cons_cons]

theorem quoted_append (s : String) (rest : List Char) :
    quoted s ++ rest = '"' :: (s.toList.flatMap escaped ++ '"' :: rest) := by
  simp [quoted]

mutual

theorem value?_chars (j : Json) (fuel : Nat) (rest : List Char) (hrest : EndsNumber rest)
    (h : j.chars.length ≤ fuel) : value? (fuel + 1) (j.chars ++ rest) = some (j.spelled, rest) := by
  cases j with
  | null =>
    rw [chars, spelled]
    exact value?_of_word? fuel ⟨'n', _, rfl, by decide⟩ (word?_null rest)
  | bool b =>
    rw [spelled]
    refine value?_of_word? fuel ?_ (word?_bool b rest)
    cases b with
    | true => exact ⟨'t', _, by rw [chars]; rfl, by decide⟩
    | false => exact ⟨'f', _, by rw [chars]; rfl, by decide⟩
  | number x =>
    rw [chars]
    cases x with
    | finite steps => exact value?_finite fuel steps hrest
    | nan => exact value?_of_word? fuel ⟨'n', _, rfl, by decide⟩ (word?_null rest)
    | infinite _ => exact value?_of_word? fuel ⟨'n', _, rfl, by decide⟩ (word?_null rest)
  | string s =>
    rw [chars] at h ⊢
    rw [spelled]
    exact value?_string s rest h
  | array items =>
    rw [chars] at h ⊢
    rw [spelled]
    cases items with
    | nil => exact value?_empty_array fuel rest
    | cons x xs =>
      obtain ⟨fuel, rfl⟩ := Nat.exists_eq_add_one.mpr (Nat.zero_lt_of_lt h)
      simp only [List.length_cons, List.length_append, List.length_nil] at h
      have hitems := items?_chars (x :: xs) (by simp) fuel rest (by omega)
      rw [List.cons_append, List.append_assoc]
      refine value?_array ?_ hitems
      obtain ⟨c, cs, heq, hc⟩ := head_of_chars x
      rw [joined_itemChars, heq]
      cases xs with
      | nil => exact ⟨c, _, rfl, hc⟩
      | cons y ys => exact ⟨c, _, rfl, hc⟩
  | object fields =>
    rw [chars] at h ⊢
    rw [spelled]
    cases fields with
    | nil => exact value?_empty_object fuel rest
    | cons e es =>
      obtain ⟨fuel, rfl⟩ := Nat.exists_eq_add_one.mpr (Nat.zero_lt_of_lt h)
      simp only [List.length_cons, List.length_append, List.length_nil] at h
      have hfields := fields?_chars (e :: es) (by simp) fuel rest (by omega)
      rw [List.cons_append, List.append_assoc]
      refine value?_object ?_ hfields
      obtain ⟨key, x⟩ := e
      rw [joined_fieldChars]
      cases es with
      | nil => exact ⟨_, rfl⟩
      | cons e es => exact ⟨_, rfl⟩

/-- The items are read one by one, each with what the one before left of the fuel. -/
theorem items?_chars (items : List Json) (hne : items ≠ []) (fuel : Nat) (rest : List Char)
    (h : ([','].intercalate (itemChars items)).length + 1 ≤ fuel) :
    items? (fuel + 1) ([','].intercalate (itemChars items) ++ ']' :: rest) =
      some (spelledItems items, rest) := by
  obtain ⟨fuel, rfl⟩ := Nat.exists_eq_add_one.mpr (Nat.zero_lt_of_lt h)
  cases items with
  | nil => exact absurd rfl hne
  | cons x xs =>
    have hpos := length_chars_pos x
    rw [joined_itemChars] at h ⊢
    cases xs with
    | nil =>
      simp only at h
      have hx := value?_chars x fuel (']' :: rest) (endsNumber_cons (by decide) rest) (by omega)
      exact items?_last hx
    | cons y ys =>
      simp only [List.length_cons, List.length_append] at h
      have hx := value?_chars x fuel
        (',' :: ([','].intercalate (itemChars (y :: ys)) ++ ']' :: rest))
        (endsNumber_cons (by decide) _) (by omega)
      have hmore := items?_chars (y :: ys) (by simp) fuel rest (by omega)
      simp only [List.append_assoc, List.cons_append]
      exact items?_more hx hmore

theorem fields?_chars (fields : List (String × Json)) (hne : fields ≠ []) (fuel : Nat)
    (rest : List Char) (h : ([','].intercalate (fieldChars fields)).length + 1 ≤ fuel) :
    fields? (fuel + 1) ([','].intercalate (fieldChars fields) ++ '}' :: rest) =
      some (spelledFields fields, rest) := by
  obtain ⟨fuel, rfl⟩ := Nat.exists_eq_add_one.mpr (Nat.zero_lt_of_lt h)
  cases fields with
  | nil => exact absurd rfl hne
  | cons e es =>
    obtain ⟨key, x⟩ := e
    rw [joined_fieldChars] at h ⊢
    cases es with
    | nil =>
      simp only [quoted, List.length_cons, List.length_append] at h
      have hkey := stringFrom?_flatMap (fuel + 1) key.toList (':' :: (x.chars ++ '}' :: rest))
        (by omega)
      have hx := value?_chars x fuel ('}' :: rest) (endsNumber_cons (by decide) rest) (by omega)
      have hfield := fields?_last hkey hx
      rw [String.ofList_toList] at hfield
      simp only [List.append_assoc, List.cons_append, quoted_append]
      exact hfield
    | cons e es =>
      obtain ⟨key', y⟩ := e
      simp only [quoted, List.length_cons, List.length_append] at h
      have hkey := stringFrom?_flatMap (fuel + 1) key.toList
        (':' :: (x.chars ++ ',' :: ([','].intercalate (fieldChars ((key', y) :: es)) ++ '}' :: rest)))
        (by omega)
      have hx := value?_chars x fuel
        (',' :: ([','].intercalate (fieldChars ((key', y) :: es)) ++ '}' :: rest))
        (endsNumber_cons (by decide) _) (by omega)
      have hmore := fields?_chars ((key', y) :: es) (by simp) fuel rest (by omega)
      have hfield := fields?_more hkey hx hmore
      rw [String.ofList_toList] at hfield
      simp only [List.append_assoc, List.cons_append, quoted_append]
      exact hfield

end

/-- Every text of JSON is read, as what it spells. -/
theorem read?_text (j : Json) : read? j.text = some j.spelled := by
  have hread := value?_chars j j.chars.length [] (by intro c hc; cases hc) (Nat.le_refl _)
  rw [List.append_nil] at hread
  unfold read? text
  simp only [String.toList_ofList, hread]
  rfl

theorem spelledFields_eq_map (fields : List (String × Json)) :
    spelledFields fields = fields.map (fun e => (e.1, e.2.spelled)) := by
  induction fields with
  | nil => rw [spelledFields, List.map_nil]
  | cons e rest ih =>
    obtain ⟨key, x⟩ := e
    rw [spelledFields, ih, List.map_cons]

/-- An integer of up to 53 bits is spelled exactly. -/
theorem spelled_ofInt {n : Int} (h : n.natAbs ≤ Number.wholeReach) :
    spelled (.number (.ofInt n)) = .number (.ofInt n) := by
  have hread := Number.ofSigned_intChars h
  rw [← Number.chars_ofInt h] at hread
  rw [Number.ofInt_of_le h] at hread ⊢
  rw [spelled, hread]

end BuildFeed.Json
