-- When a trace line fails. It fails for the time before it fails for its data, and for its data only
-- in JSON: there one value without a JSON form fails the whole line, however deep inside the data it
-- is. A pretty line marks the entries with such a value, except that it does not look into arrays.
import Mathlib.Data.List.Basic
import BuildFeed.Proofs.Number.Text
import BuildFeed.Proofs.Number.Whole
import BuildFeed.Proofs.Trace.Plain

namespace BuildFeed.Trace

namespace Value

/-! ## What is inside a value -/

mutual

/-- Whether a value or anything inside it is such. -/
def any (such : Value → Bool) : Value → Bool
  | .array items => such (.array items) || anyItem such items
  | .record entries => such (.record entries) || anyEntry such entries
  | .heir parent entries =>
    such (.heir parent entries) || any such parent || anyEntry such entries
  | value => such value

def anyItem (such : Value → Bool) : List Value → Bool
  | [] => false
  | x :: xs => any such x || anyItem such xs

def anyEntry (such : Value → Bool) : List (String × Value) → Bool
  | [] => false
  | (_, x) :: xs => any such x || anyEntry such xs

end

/-- Whether a value has no JSON form: an integer of any size, or a record within itself. -/
def isUnwritable : Value → Bool
  | .integer _ => true
  | .cyclic => true
  | _ => false

def isArray : Value → Bool
  | .array _ => true
  | _ => false

/-- Whether a record has a parent, or one of the two keys that are more than names of entries. -/
def isSpecial : Value → Bool
  | .heir _ _ => true
  | .record entries => entries.any (fun e => e.1 == parentKey || e.1 == "toJSON")
  | _ => false

/-- All records inside a value are plain lists of entries. -/
def Ordinary (v : Value) : Prop := v.any isSpecial = false

instance (v : Value) : Decidable v.Ordinary := inferInstanceAs (Decidable (_ = _))

/-! ## Values without a JSON form -/

/-- What cannot be written fails, and nothing else does. -/
def FailsJustIf {α : Type} : Bool → Except Fault α → Prop
  | true, result => result = .error .unwritable
  | false, result => ∃ x, result = .ok x

theorem FailsJustIf.map {α β : Type} {b : Bool} {r : Except Fault α} (h : FailsJustIf b r)
    (f : α → β) : FailsJustIf b (r.map f) := by
  cases b with
  | true =>
    obtain rfl : r = .error .unwritable := h
    rfl
  | false =>
    obtain ⟨x, rfl⟩ := h
    exact ⟨f x, rfl⟩

theorem FailsJustIf.eq_error_iff {α : Type} {b : Bool} {r : Except Fault α} (h : FailsJustIf b r)
    (e : Fault) : r = .error e ↔ b = true ∧ e = .unwritable := by
  cases b with
  | true =>
    obtain rfl : r = .error .unwritable := h
    rw [Except.error.injEq]
    exact ⟨fun he => ⟨rfl, he.symm⟩, fun he => he.2.symm⟩
  | false =>
    obtain ⟨x, rfl⟩ := h
    exact iff_of_false nofun nofun

theorem answersItself_of_not_isSpecial {entries : List (String × Value)}
    (h : isSpecial (.record entries) = false) : answersItself (.record entries) = false := by
  have hmissing : entries.lookup "toJSON" = none := by
    rw [List.lookup_eq_none_iff]
    intro e he
    have hkeys := List.any_eq_false.mp h e he
    rw [Bool.or_eq_true, not_or] at hkeys
    rw [bne_iff_ne]
    exact fun heq => hkeys.2 (beq_iff_eq.mpr heq.symm)
  have hfound : answers? "toJSON" (.record entries) = none :=
    congrArg (Option.map isFunction) hmissing
  rw [answersItself, hfound]
  rfl

/-- Of two parts that are written one after the other, either can fail the whole. -/
theorem FailsJustIf.both {α β γ : Type} {b c : Bool} {r : Except Fault α} {s : Except Fault β}
    {t : Except Fault γ} (hr : FailsJustIf b r) (hs : FailsJustIf c s)
    (first : ∀ e, r = .error e → t = .error e)
    (second : ∀ x e, r = .ok x → s = .error e → t = .error e)
    (neither : ∀ x y, r = .ok x → s = .ok y → ∃ z, t = .ok z) : FailsJustIf (b || c) t := by
  cases b with
  | true => exact first .unwritable hr
  | false =>
    obtain ⟨x, hx⟩ := hr
    cases c with
    | true => exact second x .unwritable hx hs
    | false =>
      obtain ⟨y, hy⟩ := hs
      exact neither x y hx hy

theorem failsJustIf_jsonItems_cons {x : Value} {xs : List Value} {b c : Bool}
    (hx : FailsJustIf b x.json?) (hxs : FailsJustIf c (jsonItems xs)) :
    FailsJustIf (b || c) (jsonItems (x :: xs)) := by
  rw [jsonItems]
  refine hx.both hxs ?first ?second ?neither
  case first =>
    intro e hj
    rw [hj]
  case second =>
    intro j e hj hjs
    rw [hj, hjs]
  case neither =>
    intro j js hj hjs
    rw [hj, hjs]
    exact ⟨_, rfl⟩

theorem failsJustIf_present_cons {key : String} {x : Value} {rest : List (String × Value)}
    {b c : Bool} (hx : FailsJustIf b x.json?)
    (hrest : FailsJustIf c (present (jsonEntries rest))) :
    FailsJustIf (b || c) (present (jsonEntries ((key, x) :: rest))) := by
  rw [jsonEntries]
  unfold present
  refine hx.both hrest ?first ?second ?neither
  case first =>
    intro e hj
    rw [hj]
  case second =>
    intro j e hj hfields
    rw [hj, hfields]
  case neither =>
    intro j fields hj hfields
    rw [hj, hfields]
    cases j with
    | none => exact ⟨fields, rfl⟩
    | some j => exact ⟨(key, j) :: fields, rfl⟩

mutual

theorem failsJustIf_json? (v : Value) (h : v.any isSpecial = false) :
    FailsJustIf (v.any isUnwritable) v.json? := by
  cases v with
  | array items =>
    simp only [any, Bool.or_eq_false_iff] at h
    simp only [any, isUnwritable, Bool.false_or, json?]
    exact (failsJustIf_jsonItems items h.2).map _
  | record entries =>
    simp only [any, Bool.or_eq_false_iff] at h
    simp only [any, isUnwritable, Bool.false_or, json?]
    rw [answersItself_of_not_isSpecial h.1]
    exact (failsJustIf_present entries h.2).map _
  | heir parent entries => cases h
  | integer n => rw [json?]; rfl
  | cyclic => rw [json?]; rfl
  | _ => rw [json?]; exact ⟨_, rfl⟩

theorem failsJustIf_jsonItems (items : List Value) (h : anyItem isSpecial items = false) :
    FailsJustIf (anyItem isUnwritable items) (jsonItems items) := by
  cases items with
  | nil => exact ⟨[], by rw [jsonItems]⟩
  | cons x xs =>
    simp only [anyItem, Bool.or_eq_false_iff] at h
    exact failsJustIf_jsonItems_cons (failsJustIf_json? x h.1) (failsJustIf_jsonItems xs h.2)

theorem failsJustIf_present (entries : List (String × Value))
    (h : anyEntry isSpecial entries = false) :
    FailsJustIf (anyEntry isUnwritable entries) (present (jsonEntries entries)) := by
  cases entries with
  | nil => exact ⟨[], by rw [jsonEntries, present]⟩
  | cons e rest =>
    obtain ⟨key, x⟩ := e
    simp only [anyEntry, Bool.or_eq_false_iff] at h
    exact failsJustIf_present_cons (failsJustIf_json? x h.1) (failsJustIf_present rest h.2)

end

end Value

/-! ## Entries of pretty lines -/

open Value (FailsJustIf isUnwritable isSpecial)

theorem ne_of_head {c d : Char} {cs ds : List Char} (h : c ≠ d) : c :: cs ≠ d :: ds :=
  fun heq => h (List.cons.inj heq).1

theorem shownText_ne (s : String) : shownText s ≠ "[unserializable]".toList := by
  unfold shownText
  simp only
  split
  · exact ne_of_head (by decide)
  · exact ne_of_head (by decide)

theorem shown_number_ne (x : Number) : shown (.number x) ≠ "[unserializable]".toList := by
  intro h
  have hbracket : '[' ∈ x.chars := by
    have h : x.chars = "[unserializable]".toList := h
    rw [h]
    decide
  exact absurd (Number.lettered_chars x '[' hbracket) (by decide)

theorem shown_array_ne (items : List Value) :
    shown (.array items) ≠ "[unserializable]".toList := by
  intro h
  have hblank : ' ' ∈ "[unserializable]".toList := by
    rw [← h]
    exact List.mem_cons_of_mem _ (List.mem_append_right _ (by decide))
  exact absurd hblank (by decide)

theorem eq_object_of_json? {entries : List (String × Value)} {j : Json}
    (h : (Value.record entries).json? = .ok (some j)) : ∃ fields, j = .object fields := by
  rw [Value.json?] at h
  split at h
  · cases h
  · cases hp : Value.present (Value.jsonEntries entries) with
    | error e =>
      rw [hp] at h
      cases h
    | ok fields =>
      rw [hp] at h
      cases h
      exact ⟨fields, rfl⟩

theorem shown_record (entries : List (String × Value)) :
    shown (.record entries) =
      match (Value.record entries).json? with
      | .ok (some j) => j.chars
      | .ok none => Value.absentWord.toList
      | .error _ => "[unserializable]".toList := rfl

theorem shown_record_ne {entries : List (String × Value)} {j : Option Json}
    (h : (Value.record entries).json? = .ok j) :
    shown (.record entries) ≠ "[unserializable]".toList := by
  rw [shown_record, h]
  cases j with
  | none => exact ne_of_head (by decide)
  | some j =>
    obtain ⟨fields, rfl⟩ := eq_object_of_json? h
    exact ne_of_head (c := '\x7b') (by decide)

/-- An entry is marked just if it is no array and has something inside that cannot be written. -/
theorem shown_eq_iff {v : Value} (h : v.Ordinary) :
    shown v = "[unserializable]".toList ↔ v.isArray = false ∧ v.any isUnwritable = true := by
  cases v with
  | record entries =>
    have hfails := Value.failsJustIf_json? (.record entries) h
    cases hb : (Value.record entries).any isUnwritable with
    | true =>
      rw [hb] at hfails
      have hfails : (Value.record entries).json? = .error .unwritable := hfails
      rw [shown_record, hfails]
      exact iff_of_true rfl ⟨rfl, rfl⟩
    | false =>
      rw [hb] at hfails
      obtain ⟨j, hj⟩ := hfails
      exact iff_of_false (shown_record_ne hj) (fun h => by cases h.2)
  | array items => exact iff_of_false (shown_array_ne items) (fun h => by cases h.1)
  | string s => exact iff_of_false (shownText_ne s) (fun h => by cases h.2)
  | number x => exact iff_of_false (shown_number_ne x) (fun h => by cases h.2)
  | heir parent entries => cases h
  | integer n => exact iff_of_true rfl ⟨rfl, rfl⟩
  | cyclic => exact iff_of_true rfl ⟨rfl, rfl⟩
  | function => exact iff_of_false (ne_of_head (by decide)) (fun h => by cases h.2)
  | absent => exact iff_of_false (ne_of_head (by decide)) (fun h => by cases h.2)
  | null => exact iff_of_false (ne_of_head (by decide)) (fun h => by cases h.2)
  | bool b => cases b <;> exact iff_of_false (ne_of_head (by decide)) (fun h => by cases h.2)

/-! ## Clocks -/

/-- Whether the calendar reaches what a clock shows. -/
def InReach (clock : Number) : Prop :=
  .ofInt (-Instant.reach) ≤ clock ∧ clock ≤ .ofInt Instant.reach

theorem reach_le_wholeReach : Instant.reach ≤ Number.wholeReach := by decide

theorem inReach_iff (clock : Number) :
    InReach clock ↔
      .finite (-(Instant.reach : Int) * Number.unit) ≤ clock ∧
        clock ≤ .finite ((Instant.reach : Int) * Number.unit) := by
  have hright := Number.ofInt_of_le (n := Instant.reach) reach_le_wholeReach
  have hleft := Number.ofInt_of_le (n := -Instant.reach)
    (Int.natAbs_neg Instant.reach ▸ reach_le_wholeReach)
  unfold InReach
  rw [hleft, hright]

theorem isSome_ofClock?_iff {clock : Number} :
    (Instant.ofClock? clock).isSome = true ↔ InReach clock := by
  rw [inReach_iff]
  cases clock with
  | nan => exact iff_of_false Bool.noConfusion (fun h => Bool.noConfusion h.1)
  | infinite negative =>
    refine iff_of_false Bool.noConfusion (fun h => ?_)
    cases negative
    · exact Bool.noConfusion h.2
    · exact Bool.noConfusion h.1
  | finite steps =>
    have hwithin : steps.natAbs ≤ Instant.reach * Number.unit ↔
        -(Instant.reach : Int) * Number.unit ≤ steps ∧
          steps ≤ (Instant.reach : Int) * Number.unit := by
      rw [Int.neg_mul, ← Int.natCast_mul]
      omega
    rw [Number.finite_le_finite, Number.finite_le_finite, ← hwithin]
    simp only [Instant.ofClock?, Number.truncated?]
    split
    · rename_i hle
      exact iff_of_true rfl hle
    · rename_i hle
      exact iff_of_false Bool.noConfusion hle

/-- An integer is held within the reach of the calendar just if it lies there. -/
theorem inReach_ofInt_iff (n : Int) : InReach (.ofInt n) ↔ n.natAbs ≤ Instant.reach := by
  by_cases hn : n.natAbs ≤ Number.wholeReach
  · unfold InReach
    rw [Number.ofInt_le_ofInt (by decide) hn, Number.ofInt_le_ofInt hn (by decide)]
    omega
  · have hless : Instant.reach < Number.wholeReach := by decide
    have hsteps := Number.wholeReach_le_rounded (n := n.natAbs) (by omega)
    have hfar : Instant.reach * Number.unit < Number.rounded (n.natAbs * Number.unit) 1 :=
      Nat.lt_of_lt_of_le (Nat.mul_lt_mul_of_pos_right hless Number.unit_pos) hsteps
    refine iff_of_false ?_ (by omega)
    rw [inReach_iff, Number.ofInt, Number.ofQuotient]
    split
    · rintro ⟨hlow, hhigh⟩
      by_cases hneg : n < 0
      · rw [decide_eq_true hneg] at hlow
        exact Bool.noConfusion hlow
      · rw [decide_eq_false hneg] at hhigh
        exact Bool.noConfusion hhigh
    · rw [Number.finite_le_finite, Number.finite_le_finite, Int.neg_mul, ← Int.natCast_mul]
      split <;> omega

theorem stamp_of_not_inReach {style : Style} {clock : Number} (htime : style.timestamps = true)
    (hclock : ¬ InReach clock) : stamp style clock = .error .clockOutOfReach := by
  have hnone : Instant.ofClock? clock = none := by
    rw [← isSome_ofClock?_iff, Option.not_isSome_iff_eq_none] at hclock
    exact hclock
  unfold stamp
  rw [if_pos htime, hnone]

theorem exists_stamp_of_not_late {style : Style} {clock : Number}
    (hlate : ¬ (style.timestamps = true ∧ ¬ InReach clock)) :
    ∃ time, stamp style clock = .ok time :=
  stamp_of_reached (fun htime => isSome_ofClock?_iff.mpr (by
    by_contra hclock
    exact hlate ⟨htime, hclock⟩))

/-! ## Lines -/

variable {style : Style} {clock : Number} {channel point : String} {data : Option Record}

theorem failsJustIf_lineJson (h : ∀ d ∈ data, d.value.Ordinary) :
    FailsJustIf (data.any (fun d => d.value.any isUnwritable))
      (lineJson style clock channel point data) := by
  cases data with
  | none => exact ⟨_, rfl⟩
  | some d =>
    have hfails := Value.failsJustIf_json? d.value (h d rfl)
    cases hb : d.value.any isUnwritable with
    | true =>
      rw [hb] at hfails
      have hfails : d.value.json? = .error .unwritable := hfails
      rw [Option.any_some, hb]
      simp only [lineJson, hfails]
      rfl
    | false =>
      rw [hb] at hfails
      obtain ⟨j, hj⟩ := hfails
      rw [Option.any_some, hb]
      simp only [lineJson, hj]
      exact ⟨_, rfl⟩

/-- A line fails for its time first, in either format. -/
theorem line_of_stamp_error {e : Fault} (hstamp : stamp style clock = .error e) :
    line style clock channel point data = .error e := by
  unfold line
  rw [hstamp]
  rfl

theorem line_of_pretty {time : List Char} (hstamp : stamp style clock = .ok time)
    (hformat : style.format = .pretty) :
    line style clock channel point data =
      .ok (String.ofList (time ++ label channel point ++ shownData (data.getD {}))) := by
  unfold line
  rw [hstamp, hformat]
  rfl

theorem line_of_json {time : List Char} (hstamp : stamp style clock = .ok time)
    (hformat : style.format = .json) :
    line style clock channel point data =
      (lineJson style clock channel point data).map Json.text := by
  unfold line
  rw [hstamp, hformat]
  cases lineJson style clock channel point data with
  | error e => rfl
  | ok j => rfl

theorem failsJustIf_line_of_json {time : List Char} (hstamp : stamp style clock = .ok time)
    (hformat : style.format = .json) (h : ∀ d ∈ data, d.value.Ordinary) :
    FailsJustIf (data.any (fun d => d.value.any isUnwritable))
      (line style clock channel point data) := by
  rw [line_of_json hstamp hformat]
  exact (failsJustIf_lineJson h).map Json.text

/-- The faults of a line: the time is too far off, or else it is to be JSON and its data hold
something that cannot be written. -/
theorem line_eq_error_iff (style : Style) (clock : Number) (channel point : String)
    (h : ∀ d ∈ data, d.value.Ordinary) (e : Fault) :
    line style clock channel point data = .error e ↔
      ((style.timestamps = true ∧ ¬ InReach clock) ∧ e = .clockOutOfReach) ∨
      (¬ (style.timestamps = true ∧ ¬ InReach clock) ∧ style.format = .json ∧
        data.any (fun d => d.value.any isUnwritable) = true ∧ e = .unwritable) := by
  by_cases hlate : style.timestamps = true ∧ ¬ InReach clock
  · rw [line_of_stamp_error (stamp_of_not_inReach hlate.1 hlate.2), Except.error.injEq]
    constructor
    · intro he
      exact .inl ⟨hlate, he.symm⟩
    · rintro (⟨-, he⟩ | ⟨hnot, -⟩)
      · exact he.symm
      · exact absurd hlate hnot
  · obtain ⟨time, hstamp⟩ := exists_stamp_of_not_late hlate
    cases hformat : style.format with
    | pretty =>
      rw [line_of_pretty hstamp hformat]
      refine iff_of_false nofun ?_
      rintro (⟨hl, -⟩ | ⟨-, hjson, -⟩)
      · exact hlate hl
      · cases hjson
    | json =>
      rw [(failsJustIf_line_of_json hstamp hformat h).eq_error_iff e]
      constructor
      · intro hfails
        exact .inr ⟨hlate, rfl, hfails⟩
      · rintro (⟨hl, -⟩ | ⟨-, -, hfails⟩)
        · exact absurd hl hlate
        · exact hfails

/-! ## Entries in lines -/

theorem shownData_eq (data : Record) :
    shownData data =
      if data.entries.isEmpty then []
      else " \x7b ".toList ++ (", ".toList).intercalate
        (data.entries.map (fun e => e.1.toList ++ '=' :: shown e.2)) ++ " \x7d".toList := by
  unfold shownData
  cases data.entries with
  | nil => rfl
  | cons e rest => rfl

theorem infix_intercalate {sep part : List Char} {parts : List (List Char)} (h : part ∈ parts) :
    part <:+: sep.intercalate parts := by
  induction parts with
  | nil => cases h
  | cons first rest ih =>
    cases rest with
    | nil =>
      have honly : sep.intercalate [first] = part := by
        rw [List.intercalate_singleton, List.mem_singleton.mp h]
      exact honly.symm ▸ List.infix_refl part
    | cons second rest =>
      rw [List.intercalate_cons_cons]
      rcases List.mem_cons.mp h with rfl | hrest
      · rw [List.append_assoc]
        exact (List.prefix_append _ _).isInfix
      · exact (ih hrest).trans (List.suffix_append _ _).isInfix

theorem infix_shownData {data : Record} {key : String} {v : Value} (h : (key, v) ∈ data.entries) :
    key.toList ++ '=' :: shown v <:+: shownData data := by
  have hshown : key.toList ++ '=' :: shown v ∈ data.entries.map shownEntry :=
    List.mem_map_of_mem (f := shownEntry) h
  unfold shownData
  split
  · rename_i hnone
    rw [hnone] at h
    cases h
  · exact (infix_intercalate hshown).trans (List.infix_append _ _ _)

/-- A pretty line shows each of its entries. -/
theorem infix_line {style : Style} {clock : Number} {channel point : String} {data : Record}
    {text : String} (hformat : style.format = .pretty)
    (hline : line style clock channel point (some data) = .ok text) {key : String} {v : Value}
    (h : (key, v) ∈ data.entries) : key.toList ++ '=' :: shown v <:+: text.toList := by
  cases hstamp : stamp style clock with
  | error fault =>
    rw [line_of_stamp_error hstamp] at hline
    cases hline
  | ok time =>
    rw [line_of_pretty hstamp hformat] at hline
    cases hline
    rw [String.toList_ofList]
    exact (infix_shownData h).trans (List.suffix_append _ _).isInfix

/-! ## Entries of ordinary records -/

theorem ordinary_of_mem {entries : List (String × Value)}
    (h : Value.anyEntry isSpecial entries = false) {e : String × Value} (he : e ∈ entries) :
    e.2.Ordinary := by
  induction entries with
  | nil => cases he
  | cons first rest ih =>
    simp only [Value.anyEntry, Bool.or_eq_false_iff] at h
    rcases List.mem_cons.mp he with rfl | hrest
    · exact h.1
    · exact ih h.2 hrest

theorem Record.ordinary_entry {d : Record} (h : d.value.Ordinary) {e : String × Value}
    (he : e ∈ d.entries) : e.2.Ordinary := by
  obtain ⟨parent, entries⟩ := d
  cases parent with
  | none => exact ordinary_of_mem (Bool.or_eq_false_iff.mp h).2 he
  | some parent => cases h

/-- A line fails with its time if times are shown and the calendar does not reach the clock, else
with its data if it is a JSON line and there is something in the data, at any depth, that has no
JSON form. It fails in no other way. A pretty line that does not fail with its time shows all entries
between braces, each with its key, and the marked ones are those that hold such a value and are not
arrays. -/
theorem a_line_fails_just_where_it_must (style : Style) (clock : Number) (channel point : String)
    (data : Option Record) (hdata : ∀ d ∈ data, d.value.Ordinary) :
    (line style clock channel point data = .error .clockOutOfReach ↔
      style.timestamps = true ∧ ¬ InReach clock) ∧
    (line style clock channel point data = .error .unwritable ↔
      ¬ (style.timestamps = true ∧ ¬ InReach clock) ∧ style.format = .json ∧
        ∃ d ∈ data, d.value.any isUnwritable = true) ∧
    (∀ e, line style clock channel point data = .error e → e = .clockOutOfReach ∨ e = .unwritable) ∧
    (style.format = .pretty → ¬ (style.timestamps = true ∧ ¬ InReach clock) →
      ∃ time text, stamp style clock = .ok time ∧
        line style clock channel point data = .ok text ∧
        text.toList = time ++ label channel point ++
          (if (data.getD {}).entries.isEmpty then []
          else " \x7b ".toList ++ (", ".toList).intercalate
            ((data.getD {}).entries.map (fun e => e.1.toList ++ '=' :: shown e.2)) ++
              " \x7d".toList) ∧
        ∀ d ∈ data, ∀ e ∈ d.entries, e.1.toList ++ '=' :: shown e.2 <:+: text.toList) ∧
    (∀ d ∈ data, ∀ e ∈ d.entries, shown e.2 = "[unserializable]".toList ↔
      e.2.isArray = false ∧ e.2.any isUnwritable = true) := by
  have hfaults := line_eq_error_iff style clock channel point hdata
  refine ⟨?time, ?data, ?other, ?pretty, ?marked⟩
  case time => simp [hfaults]
  case data => simp [hfaults, Option.any_eq_true]
  case other =>
    intro e he
    rcases (hfaults e).mp he with ⟨-, he⟩ | ⟨-, -, -, he⟩
    · exact .inl he
    · exact .inr he
  case pretty =>
    intro hformat hlate
    obtain ⟨time, hstamp⟩ := exists_stamp_of_not_late hlate
    have hline : line style clock channel point data = _ := line_of_pretty hstamp hformat
    refine ⟨time, _, hstamp, hline, ?_, ?_⟩
    · rw [String.toList_ofList, shownData_eq]
    · rintro d rfl e he
      exact infix_line hformat hline he
  case marked =>
    intro d hd e he
    exact shown_eq_iff (Record.ordinary_entry (hdata d hd) he)

/-- An integer deep inside: the line fails with its time if it is to show it, without that it fails
in JSON only, and a pretty line marks the record that holds the integer but not the array. -/
theorem an_integer_in_an_array_in_a_record :
    let inner : Value := .array [.integer 7]
    let data : Record := { entries := [("record", .record [("items", inner)]), ("items", inner)] }
    let clock : Number := .ofInt (Instant.reach + 1)
    (∀ d ∈ some data, d.value.Ordinary) ∧
      line { format := .json, timestamps := true } clock "event" "sent" data =
        .error .clockOutOfReach ∧
      line { format := .json } clock "event" "sent" data = .error .unwritable ∧
      line { format := .pretty } clock "event" "sent" data =
        .ok "[event.sent] \x7b record=[unserializable], items=[1 items] \x7d" ∧
      shown (.record [("items", inner)]) = "[unserializable]".toList ∧
      shown inner ≠ "[unserializable]".toList := by
  intro inner data clock
  have hdata : ∀ d ∈ some data, d.value.Ordinary := by
    intro d hd
    cases hd
    decide
  have hclock : ¬ InReach clock := by
    intro hreach
    have hle := (Number.ofInt_le_ofInt (by decide) (by decide)).mp hreach.2
    exact absurd hle (by decide)
  have hheld : ∃ d ∈ some data, d.value.any isUnwritable = true := ⟨data, rfl, by decide⟩
  have hmarked := (a_line_fails_just_where_it_must {} clock "event" "sent" data hdata).2.2.2.2
    data rfl
  refine ⟨hdata, ?_, ?_, ?_, ?_, ?_⟩
  · exact (a_line_fails_just_where_it_must _ clock "event" "sent" data hdata).1.mpr ⟨rfl, hclock⟩
  · exact (a_line_fails_just_where_it_must _ clock "event" "sent" data hdata).2.1.mpr
      ⟨(fun hlate => nomatch hlate.1), rfl, hheld⟩
  · obtain ⟨time, text, hstamp, hline, htext, -⟩ :=
      (a_line_fails_just_where_it_must { format := .pretty } clock "event" "sent" data
        hdata).2.2.2.1 rfl (fun hlate => nomatch hlate.1)
    cases hstamp
    rw [hline, Except.ok.injEq, ← String.toList_inj, htext]
    decide +kernel
  · exact (hmarked ("record", _) List.mem_cons_self).mpr ⟨rfl, by decide⟩
  · intro hshown
    cases ((hmarked ("items", inner) (List.mem_cons_of_mem _ List.mem_cons_self)).mp hshown).1

end BuildFeed.Trace
