-- Which channels a setting turns on. The words for none and for all are compared as they stand; any
-- other setting is read piece by piece.
import Mathlib.Data.List.Basic
import Mathlib.Data.List.TakeWhile
import BuildFeed.Trace.Switches

namespace BuildFeed.Trace

/-- A setting turns on the channel of a plain name: it is a word for all channels, or it is no word for
none and one of its pieces between commas, without blanks around it and in lower case, is the name or
stands for all channels. -/
def Enables (setting name : String) : Prop :=
  setting ∈ ["*", "1", "true"] ∨
    setting ∉ ["", "0", "false"] ∧
      ∃ piece ∈ setting.toList.splitOn ',', Switches.plain piece ∈ [Switches.all, name]

instance (setting name : String) : Decidable (Enables setting name) :=
  inferInstanceAs (Decidable (_ ∨ _ ∧ _))

/-- A name as channels are asked for. -/
def lowerName (name : String) : String := String.ofList (Text.lower name.toList)

theorem lowerName_channel (channel : Channel) : lowerName channel.name = channel.name := by
  cases channel <;> decide +kernel

namespace Switches

theorem pieces_eq_splitOn (cs : List Char) : pieces cs = cs.splitOn ',' := by
  rw [List.splitOn_eq_splitOnP]
  induction cs with
  | nil => rw [List.splitOnP_nil, pieces]
  | cons c cs ih =>
    unfold pieces
    rw [ih, List.splitOnP_cons_eq_if_modifyHead]
    by_cases hc : c = ','
    · simp [hc]
    · rw [if_neg hc, if_neg (by simpa using hc)]
      cases hsplit : List.splitOnP (fun x => x == ',') cs with
      | nil => exact absurd hsplit (List.splitOnP_ne_nil _ _)
      | cons first rest => rfl

theorem isOn_iff (s : Switches) (name : String) :
    s.isOn name = true ↔ all ∈ s.names ∨ lowerName name ∈ s.names := by
  simp [isOn, lowerName]

/-- A channel is on just if the setting turns it on. -/
theorem isOn_ofSetting (setting : Option String) (name : String) :
    (ofSetting setting).isOn name = true ↔ Enables (setting.getD "") (lowerName name) := by
  rw [isOn_iff]
  unfold ofSetting Enables
  simp only
  by_cases hnone : setting.getD "" ∈ ["", "0", "false"]
  · have hall : setting.getD "" ∉ ["*", "1", "true"] := by
      intro h
      have hapart : ∀ word ∈ ["", "0", "false"], word ∉ ["*", "1", "true"] := by decide
      exact hapart _ hnone h
    simp [hnone, hall]
  · rw [if_neg hnone]
    by_cases hall : setting.getD "" ∈ ["*", "1", "true"]
    · simp [hall]
    · rw [if_neg hall, pieces_eq_splitOn]
      simp only [hnone, hall, false_or, not_false_eq_true, true_and, List.mem_map, List.mem_pair]
      constructor
      · rintro (⟨piece, hmem, h⟩ | ⟨piece, hmem, h⟩)
        · exact ⟨piece, hmem, .inl h⟩
        · exact ⟨piece, hmem, .inr h⟩
      · rintro ⟨piece, hmem, h | h⟩
        · exact .inl ⟨piece, hmem, h⟩
        · exact .inr ⟨piece, hmem, h⟩

/-! ## Settings of commas and blanks -/

theorem trimStart_eq_nil_iff (cs : List Char) :
    Text.trimStart cs = [] ↔ ∀ c ∈ cs, Text.isBlank c = true := by
  unfold Text.trimStart
  exact List.dropWhile_eq_nil_iff

/-- Nothing is left of a text without its blanks just if it has nothing else. -/
theorem trim_eq_nil_iff (cs : List Char) : Text.trim cs = [] ↔ ∀ c ∈ cs, Text.isBlank c = true := by
  unfold Text.trim
  rw [List.reverse_eq_nil_iff, trimStart_eq_nil_iff, ← trimStart_eq_nil_iff cs]
  constructor
  · intro h
    by_contra hne
    have hhead : Text.isBlank ((Text.trimStart cs).head hne) = false :=
      List.head_dropWhile_not _ hne
    rw [h _ (List.mem_reverse.mpr (List.head_mem hne))] at hhead
    cases hhead
  · intro h
    rw [h]
    simp

theorem lowerChar_ne_nil (before : List Char) (c : Char) (after : List Char) :
    Text.lowerChar before c after ≠ [] := by
  unfold Text.lowerChar
  split
  · simp
  · split <;> simp

theorem lower_eq_nil_iff (cs : List Char) : Text.lower cs = [] ↔ cs = [] := by
  unfold Text.lower
  cases cs with
  | nil => simp [Text.lowerAfter]
  | cons c cs => simp [Text.lowerAfter, lowerChar_ne_nil]

theorem lowerName_eq_empty_iff (name : String) : lowerName name = "" ↔ name = "" := by
  unfold lowerName
  rw [← String.toList_eq_nil_iff, String.toList_ofList, ← String.toList_eq_nil_iff]
  exact lower_eq_nil_iff name.toList

theorem plain_eq_lowerName (piece : List Char) :
    plain piece = lowerName (String.ofList (Text.trim piece)) := by
  unfold plain lowerName
  rw [String.toList_ofList]

/-- A piece is no name just if it is blank. -/
theorem plain_eq_empty_iff (piece : List Char) :
    plain piece = "" ↔ ∀ c ∈ piece, Text.isBlank c = true := by
  rw [plain_eq_lowerName, lowerName_eq_empty_iff, ← String.toList_inj, String.toList_ofList]
  exact trim_eq_nil_iff piece

/-- What stands in the pieces of a text is all of it but the commas. -/
theorem forall_mem_pieces_iff (p : Char → Prop) (cs : List Char) :
    (∀ piece ∈ pieces cs, ∀ c ∈ piece, p c) ↔ ∀ c ∈ cs, c = ',' ∨ p c := by
  induction cs with
  | nil => simp [pieces]
  | cons c cs ih =>
    unfold pieces
    by_cases hc : c = ','
    · rw [if_pos hc]
      simp [hc, ih]
    · rw [if_neg hc]
      cases hsplit : pieces cs with
      | nil =>
        rw [hsplit] at ih
        simp [hc, ← ih]
      | cons first rest =>
        rw [hsplit] at ih
        simp only [List.forall_mem_cons, hc, false_or] at ih ⊢
        rw [← ih, and_assoc]

/-- A setting in which nothing but commas and blanks stands, though something does. -/
def Vacant (setting : String) : Prop :=
  setting ≠ "" ∧ ∀ c ∈ setting.toList, c = ',' ∨ Text.isBlank c = true

theorem vacant_iff (setting : String) :
    Vacant setting ↔ setting ≠ "" ∧ ∀ piece ∈ setting.toList.splitOn ',', plain piece = "" := by
  unfold Vacant
  simp only [plain_eq_empty_iff, ← pieces_eq_splitOn, forall_mem_pieces_iff]

instance (setting : String) : Decidable (Vacant setting) :=
  decidable_of_iff
    (setting ≠ "" ∧ setting.toList.all (fun c => c = ',' || Text.isBlank c) = true)
    (by simp [Vacant])

theorem not_vacant_of_mem {word : String} (h : word ∈ ["", "0", "false"] ++ ["*", "1", "true"]) :
    ¬ Vacant word := by
  have hwords : ∀ word ∈ ["", "0", "false"] ++ ["*", "1", "true"], ¬ Vacant word := by decide
  exact hwords word h

/-- A setting that is no word for none turns some name on just if there is more in it than commas
and blanks. -/
theorem exists_enables_iff (setting : String) :
    (∃ name, name ≠ "" ∧ Enables setting (lowerName name)) ↔
      setting ∉ ["", "0", "false"] ∧ ¬ Vacant setting := by
  constructor
  · rintro ⟨name, hname, hyes | ⟨hno, piece, hpiece, hplain⟩⟩
    · have hapart : ∀ word ∈ ["*", "1", "true"], word ∉ ["", "0", "false"] := by decide
      exact ⟨hapart setting hyes, not_vacant_of_mem (List.mem_append_right _ hyes)⟩
    · refine ⟨hno, ?_⟩
      intro hvacant
      rw [((vacant_iff setting).mp hvacant).2 piece hpiece, List.mem_pair] at hplain
      rcases hplain with hall | hlower
      · exact absurd hall (by decide)
      · exact hname ((lowerName_eq_empty_iff name).mp hlower.symm)
  · rintro ⟨hno, hfilled⟩
    have hne : setting ≠ "" := by
      rintro rfl
      exact hno (by decide)
    have hpieces : ¬ ∀ piece ∈ setting.toList.splitOn ',', plain piece = "" :=
      fun h => hfilled ((vacant_iff setting).mpr ⟨hne, h⟩)
    simp only [not_forall] at hpieces
    obtain ⟨piece, hpiece, hplain⟩ := hpieces
    -- the piece without its blanks is a name that the setting turns on
    rw [plain_eq_lowerName] at hplain
    refine ⟨String.ofList (Text.trim piece), mt (lowerName_eq_empty_iff _).mpr hplain,
      .inr ⟨hno, piece, hpiece, ?_⟩⟩
    rw [plain_eq_lowerName]
    simp

theorem isEmpty_names_ofSetting (setting : Option String) :
    (ofSetting setting).names.isEmpty = true ↔ setting.getD "" ∈ ["", "0", "false"] := by
  have hpieces : pieces (setting.getD "").toList ≠ [] := by
    rw [pieces_eq_splitOn]
    exact List.splitOn_ne_nil _ _
  unfold ofSetting
  simp only
  split
  · rename_i hno
    exact iff_of_true rfl hno
  · rename_i hno
    split
    · exact iff_of_false Bool.noConfusion hno
    · simpa [hno] using hpieces

end Switches

end BuildFeed.Trace
