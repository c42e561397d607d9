-- Long texts in pretty lines. A text of up to 60 UTF-16 units is shown as it is, and of a longer one the
-- first 57. They are counted without regard to characters, so the last of them may be half of a pair.
import BuildFeed.Proofs.Text.Units
import BuildFeed.Proofs.Trace.Faults

namespace BuildFeed.Trace

open Text (utf16 utf16Char ofUtf16 splitsPair)

/-! ## Texts -/

theorem shownText_of_short {s : String} (h : Text.units s.toList ≤ shownUnits) :
    shownText s = '"' :: (s.toList ++ ['"']) := by
  unfold shownText
  exact if_neg (Nat.not_lt.mpr h)

theorem shownText_of_long {s : String} (h : shownUnits < Text.units s.toList) :
    shownText s = '"' :: (Text.firstUnits keptUnits s.toList ++ ['.', '.', '.', '"']) := by
  unfold shownText
  exact if_pos h

theorem keptUnits_le_of_long {cs : List Char} (h : shownUnits < Text.units cs) :
    keptUnits ≤ Text.units cs := by
  have hless : keptUnits ≤ shownUnits := by decide
  omega

/-- With its quotes a text takes at most two units more than the longest that is shown in full. -/
theorem units_shownText_le (s : String) : Text.units (shownText s) ≤ shownUnits + 2 := by
  have hquote : Text.unitsOf '"' = 1 := by decide
  by_cases h : Text.units s.toList ≤ shownUnits
  · have hend : Text.units ['"'] = 1 := by decide
    rw [shownText_of_short h, Text.units, Text.units_append, hquote, hend]
    omega
  · have hlong : shownUnits < Text.units s.toList := Nat.not_le.mp h
    have hend : Text.units ['.', '.', '.', '"'] = 4 := by decide
    have hkept : keptUnits + 3 ≤ shownUnits := by decide
    rw [shownText_of_long hlong, Text.units, Text.units_append, hquote, hend,
      Text.units_firstUnits (keptUnits_le_of_long hlong)]
    omega

/-! ## The law -/

/-- A text of up to 60 UTF-16 units is shown in full, and of a longer one its first 57 units, with three
dots behind them; both stand in quotes, so nothing that is shown takes more than 62 units. The 57 units
are a start of the text just if they do not end between the two units of a pair. If they do, there are 56
units of whole characters, and then a replacement character stands for one of two units. -/
theorem a_long_text_is_cut_behind_57_units (s : String) :
    (utf16 (shown (.string s))).length ≤ 62 ∧
    ((utf16 s.toList).length ≤ 60 → shown (.string s) = '"' :: (s.toList ++ ['"'])) ∧
    (60 < (utf16 s.toList).length →
      ∃ w, shown (.string s) = '"' :: (w ++ ['.', '.', '.', '"']) ∧
        w = ofUtf16 ((utf16 s.toList).take 57) ∧ (utf16 w).length = 57 ∧
        (w <+: s.toList ↔ splitsPair 57 s.toList = false) ∧
        (splitsPair 57 s.toList = true →
          ∃ kept c, kept ++ [c] <+: s.toList ∧ (utf16 kept).length = 56 ∧
            (utf16Char c).length = 2 ∧ w = kept ++ [Text.halved])) ∧
    (∀ style clock channel point data key text, style.format = .pretty →
      line style clock channel point (some data) = .ok text → (key, .string s) ∈ data.entries →
        key.toList ++ '=' :: shown (.string s) <:+: text.toList) := by
  simp only [Text.length_utf16, Text.length_utf16Char]
  refine ⟨units_shownText_le s, shownText_of_short, ?long, ?lines⟩
  case long =>
    intro hlong
    have hkept : 57 ≤ Text.units s.toList := keptUnits_le_of_long hlong
    refine ⟨Text.firstUnits 57 s.toList, shownText_of_long hlong,
      Text.firstUnits_eq_ofUtf16 57 s.toList, Text.units_firstUnits hkept,
      Text.firstUnits_prefix_iff hkept, ?_⟩
    intro hsplit
    obtain ⟨kept, c, hprefix, hunits, hc, heq⟩ := Text.exists_of_splitsPair hkept hsplit
    exact ⟨kept, c, hprefix, Nat.succ.inj hunits, hc, heq⟩
  case lines =>
    intro style clock channel point data key text hformat hline hentry
    exact infix_line hformat hline hentry

/-- A pair that ends with the 57th unit is shown as it is. -/
theorem a_pair_in_front_of_the_cut :
    let v := List.replicate 55 'x' ++ ['😀', 'a', 'b', 'c', 'd']
    let data : Record := { entries := [("uri", .string (String.ofList v))] }
    60 < (utf16 v).length ∧ splitsPair 57 v = false ∧
      (∃ w, w <+: v ∧ (utf16 w).length = 57 ∧
        shown (.string (String.ofList v)) = '"' :: (w ++ ['.', '.', '.', '"'])) ∧
      ∃ text, line {} 0 "store" "append" (some data) = .ok text ∧
        "uri".toList ++ '=' :: shown (.string (String.ofList v)) <:+: text.toList := by
  intro v data
  have hlong : 60 < (utf16 v).length := by decide
  have hwhole : splitsPair 57 v = false := by decide
  obtain ⟨-, -, hcut, hlines⟩ := a_long_text_is_cut_behind_57_units (String.ofList v)
  rw [String.toList_ofList] at hcut
  obtain ⟨w, hshown, -, hunits, hprefix, -⟩ := hcut hlong
  obtain ⟨text, hline⟩ : ∃ text, line {} 0 "store" "append" (some data) = .ok text :=
    ⟨_, line_of_pretty rfl rfl⟩
  exact ⟨hlong, hwhole, ⟨w, hprefix.mpr hwhole, hunits, hshown⟩, text, hline,
    hlines {} 0 "store" "append" data "uri" text rfl hline List.mem_cons_self⟩

/-- A pair that begins with the 57th unit is cut, and the text does not go on as the line says. -/
theorem a_pair_that_is_cut_is_shown_as_another_character :
    let v := List.replicate 56 'x' ++ ['😀', 'a', 'b', 'c']
    60 < (utf16 v).length ∧
      shown (.string (String.ofList v)) =
        '"' :: (List.replicate 56 'x' ++ ['\uFFFD', '.', '.', '.', '"']) ∧
      ¬ ∃ w, w <+: v ∧ shown (.string (String.ofList v)) = '"' :: (w ++ ['.', '.', '.', '"']) := by
  intro v
  have hlong : shownUnits < Text.units v := by decide
  have hcut : Text.firstUnits keptUnits v = List.replicate 56 'x' ++ ['\uFFFD'] := by decide
  have hshown : shown (.string (String.ofList v)) =
      '"' :: ((List.replicate 56 'x' ++ ['\uFFFD']) ++ ['.', '.', '.', '"']) := by
    change shownText (String.ofList v) = _
    rw [shownText_of_long (by rwa [String.toList_ofList]), String.toList_ofList, hcut]
  refine ⟨by decide, hshown, ?_⟩
  rintro ⟨w, hprefix, hw⟩
  rw [hshown, List.cons.injEq] at hw
  rw [← List.append_cancel_right hw.2] at hprefix
  exact absurd hprefix (by decide)

end BuildFeed.Trace
