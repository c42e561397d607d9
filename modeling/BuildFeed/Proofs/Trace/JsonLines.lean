-- What a JSON line says. Its text stands on one line, and whoever reads it finds the channel, the
-- point, the data and the time that the line was made of. Of the data only what has no place in JSON
-- is not there: an entry without a value is left out, and an item without one is null.
import BuildFeed.Proofs.Json.Printable
import BuildFeed.Proofs.Trace.Faults

namespace BuildFeed.Trace

namespace Value

/-! ## Data that can be read back -/

/-- What has no place in JSON. -/
def isMissing : Value → Bool
  | .absent => true
  | .function => true
  | _ => false

/-- Whether a number is an integer of up to 53 bits. -/
def isExact (x : Number) : Bool :=
  match x.whole? with
  | some n => n.natAbs ≤ Number.wholeReach
  | none => false

/-- What JSON cannot carry as it is: besides what it cannot write, a record that is more than its
entries, and a number that its digits may not spell. -/
def isIllegible : Value → Bool
  | .number x => !isExact x
  | v => v.isSpecial || v.isUnwritable

/-- Nothing inside a value is lost in JSON but what is missing. -/
def Legible (v : Value) : Prop := v.any isIllegible = false

instance (v : Value) : Decidable v.Legible := inferInstanceAs (Decidable (_ = _))

mutual

/-- What a reader of JSON finds in the place of a value. -/
def written : Value → Json
  | .bool b => .bool b
  | .number x => .number x
  | .string s => .string s
  | .array items => .array (writtenItems items)
  | .record entries => .object (writtenEntries entries)
  | _ => .null

/-- Every item is there, a missing one as null. -/
def writtenItems : List Value → List Json
  | [] => []
  | x :: xs => written x :: writtenItems xs

/-- The entries are there in their order, without the missing ones. -/
def writtenEntries : List (String × Value) → List (String × Json)
  | [] => []
  | (key, x) :: xs =>
    if isMissing x then writtenEntries xs else (key, written x) :: writtenEntries xs

end

/-! ## What is written -/

/-- The exact numbers are the integers of up to 53 bits. -/
theorem isExact_iff (x : Number) :
    isExact x = true ↔ ∃ n : Int, n.natAbs ≤ Number.wholeReach ∧ x = .ofInt n := by
  constructor
  · intro h
    unfold isExact at h
    split at h
    · rename_i n hn
      have hle := of_decide_eq_true h
      refine ⟨n, hle, ?_⟩
      rw [Number.ofInt_of_le hle]
      exact Number.eq_of_whole? hn
    · cases h
  · rintro ⟨n, hle, hx⟩
    rw [Number.ofInt_of_le hle] at hx
    rw [isExact, hx, Number.whole?_mul_unit]
    exact decide_eq_true hle

/-- A value that is there has the JSON form that a reader is to find. -/
def form? (v : Value) : Option Json := if v.isMissing then none else some v.written

theorem getD_form? (v : Value) : v.form?.getD .null = v.written := by
  cases v <;> simp [form?, isMissing, written]

theorem jsonItems_cons_of_ok {x : Value} {xs : List Value} {j : Option Json} {js : List Json}
    (hx : x.json? = .ok j) (hxs : jsonItems xs = .ok js) :
    jsonItems (x :: xs) = .ok (j.getD .null :: js) := by
  rw [jsonItems, hx, hxs]

theorem present_jsonEntries_cons {key : String} {x : Value} {rest : List (String × Value)}
    {fields : List (String × Json)} (hx : x.json? = .ok x.form?)
    (hrest : present (jsonEntries rest) = .ok fields) :
    present (jsonEntries ((key, x) :: rest)) =
      .ok (if x.isMissing then fields else (key, x.written) :: fields) := by
  rw [jsonEntries]
  unfold present
  rw [hx, hrest]
  unfold form?
  cases x.isMissing with
  | true => rfl
  | false => rfl

mutual

theorem json?_of_legible (v : Value) (h : v.any isIllegible = false) :
    v.json? = .ok v.form? := by
  cases v with
  | array items =>
    simp only [any, Bool.or_eq_false_iff] at h
    rw [json?, jsonItems_of_legible items h.2]
    simp [form?, isMissing, written, Except.map]
  | record entries =>
    simp only [any, isIllegible, Bool.or_eq_false_iff] at h
    have hplain := answersItself_of_not_isSpecial h.1.1
    rw [json?, hplain, present_of_legible entries h.2]
    simp [form?, isMissing, written, Except.map]
  | heir parent entries => cases h
  | integer n => cases h
  | cyclic => cases h
  | _ => simp [json?, form?, isMissing, written]

theorem jsonItems_of_legible (items : List Value) (h : anyItem isIllegible items = false) :
    jsonItems items = .ok (writtenItems items) := by
  cases items with
  | nil => rw [jsonItems, writtenItems]
  | cons x xs =>
    simp only [anyItem, Bool.or_eq_false_iff] at h
    rw [jsonItems_cons_of_ok (json?_of_legible x h.1) (jsonItems_of_legible xs h.2), getD_form?,
      writtenItems]

theorem present_of_legible (entries : List (String × Value))
    (h : anyEntry isIllegible entries = false) :
    present (jsonEntries entries) = .ok (writtenEntries entries) := by
  cases entries with
  | nil => rw [jsonEntries, present, writtenEntries]
  | cons e rest =>
    obtain ⟨key, x⟩ := e
    simp only [anyEntry, Bool.or_eq_false_iff] at h
    rw [present_jsonEntries_cons (json?_of_legible x h.1) (present_of_legible rest h.2),
      writtenEntries]

end

/-! ## What is read -/

mutual

/-- What is read in the place of a value is what was written there. -/
theorem spelled_written (v : Value) (h : v.any isIllegible = false) :
    v.written.spelled = v.written := by
  cases v with
  | number x =>
    have hexact : isExact x = true := by simpa [any, isIllegible] using h
    obtain ⟨n, hn, heq⟩ := (isExact_iff x).mp hexact
    have hspelled : Json.spelled (.number x) = .number x := heq ▸ Json.spelled_ofInt hn
    rw [written, hspelled]
  | array items =>
    simp only [any, Bool.or_eq_false_iff] at h
    rw [written, Json.spelled, spelledItems_written items h.2]
  | record entries =>
    simp only [any, Bool.or_eq_false_iff] at h
    rw [written, Json.spelled, spelledFields_written entries h.2]
  | _ => simp [written, Json.spelled]

theorem spelledItems_written (items : List Value) (h : anyItem isIllegible items = false) :
    Json.spelledItems (writtenItems items) = writtenItems items := by
  cases items with
  | nil => rw [writtenItems, Json.spelledItems]
  | cons x xs =>
    simp only [anyItem, Bool.or_eq_false_iff] at h
    rw [writtenItems, Json.spelledItems, spelled_written x h.1, spelledItems_written xs h.2]

theorem spelledFields_written (entries : List (String × Value))
    (h : anyEntry isIllegible entries = false) :
    Json.spelledFields (writtenEntries entries) = writtenEntries entries := by
  cases entries with
  | nil => rw [writtenEntries, Json.spelledFields]
  | cons e rest =>
    obtain ⟨key, x⟩ := e
    simp only [anyEntry, Bool.or_eq_false_iff] at h
    rw [writtenEntries]
    split
    · exact spelledFields_written rest h.2
    · rw [Json.spelledFields, spelled_written x h.1, spelledFields_written rest h.2]

end

end Value

/-! ## Lines -/

variable {style : Style} {clock : Number} {channel point text : String} {data : Option Record}

/-- The fields of a JSON line: the data only if they have a JSON form, the time only if it is
shown. -/
def lineFields (style : Style) (time : Json) (channel point : String) (own : Option Json) :
    List (String × Json) :=
  [("channel", .string channel), ("point", .string point)] ++ Json.optional "data" id own ++
    if style.timestamps then [("timestamp", time)] else []

/-- The JSON form of the data of a line, if there are data that have one. -/
def ownJson (data : Option Record) : Except Fault (Option Json) :=
  match data with
  | some d => d.value.json?
  | none => .ok none

theorem lineJson_eq (style : Style) (clock : Number) (channel point : String)
    (data : Option Record) :
    lineJson style clock channel point data =
      (ownJson data).map
        (fun own => .object (lineFields style (.number clock) channel point own)) := by
  unfold lineJson ownJson lineFields
  cases data with
  | none => rfl
  | some d =>
    simp only
    cases d.value.json? with
    | error e => rfl
    | ok own => rfl

/-- A line that shows the time is made under a clock that the calendar reaches. -/
theorem inReach_of_line (h : line style clock channel point data = .ok text)
    (htime : style.timestamps = true) : InReach clock := by
  by_contra hclock
  rw [line_of_stamp_error (stamp_of_not_inReach htime hclock)] at h
  cases h

theorem eq_text_of_line (hformat : style.format = .json)
    (h : line style clock channel point data = .ok text) :
    ∃ own, ownJson data = .ok own ∧
      text = (Json.object (lineFields style (.number clock) channel point own)).text := by
  cases hstamp : stamp style clock with
  | error e =>
    rw [line_of_stamp_error hstamp] at h
    cases h
  | ok time =>
    rw [line_of_json hstamp hformat, lineJson_eq] at h
    cases hown : ownJson data with
    | error e =>
      rw [hown] at h
      cases h
    | ok own =>
      rw [hown] at h
      exact ⟨own, rfl, (Except.ok.inj h).symm⟩

theorem spelled_lineFields (style : Style) (time : Json) (channel point : String)
    (own : Option Json) :
    Json.spelled (.object (lineFields style time channel point own)) =
      .object (lineFields style time.spelled channel point (own.map Json.spelled)) := by
  unfold lineFields
  rw [Json.spelled, Json.spelledFields_eq_map]
  cases own with
  | none => split <;> simp [Json.optional, Json.spelled]
  | some j => split <;> simp [Json.optional, Json.spelled]

/-- What is read from a JSON line: its fields, each as its text spells it. -/
theorem read?_of_line (hformat : style.format = .json)
    (h : line style clock channel point data = .ok text) :
    ∃ own, ownJson data = .ok own ∧
      Json.read? text = some (.object
        (lineFields style (Json.number clock).spelled channel point (own.map Json.spelled))) := by
  obtain ⟨own, hown, rfl⟩ := eq_text_of_line hformat h
  exact ⟨own, hown, by rw [Json.read?_text, spelled_lineFields]⟩

/-- The time of a line is an integer that its digits spell exactly. -/
theorem lineFields_of_line {t : Int} (h : line style (.ofInt t) channel point data = .ok text)
    (own : Option Json) :
    lineFields style (Json.number (.ofInt t)).spelled channel point own =
      lineFields style (.number (.ofInt t)) channel point own := by
  unfold lineFields
  by_cases htime : style.timestamps = true
  · have hreach := (inReach_ofInt_iff t).mp (inReach_of_line h htime)
    rw [Json.spelled_ofInt (Nat.le_trans hreach reach_le_wholeReach)]
  · rw [if_neg htime, if_neg htime]

theorem ownJson_of_legible (h : ∀ d ∈ data, d.value.Legible) :
    ownJson data = .ok (data.map (fun d => d.value.written)) := by
  cases data with
  | none => rfl
  | some d =>
    have hjson := Value.json?_of_legible d.value (h d rfl)
    obtain ⟨parent, entries⟩ := d
    cases parent with
    | none => exact hjson
    | some parent => cases h _ rfl

theorem map_spelled_of_legible (h : ∀ d ∈ data, d.value.Legible) :
    (data.map (fun d => d.value.written)).map Json.spelled = data.map (fun d => d.value.written) := by
  cases data with
  | none => rfl
  | some d => exact congrArg some (Value.spelled_written d.value (h d rfl))

/-- A JSON line stands on one line and is read as a record of just these fields: the channel and the
point, the data if there are any, and the time if it is shown. The data are as they were given, in
their order, down to every item and entry, save that entries without a value are left out and items
without one are null. Only a clock that the calendar does not reach keeps such a line from being
made. -/
theorem a_json_line_is_read_as_what_was_traced (style : Style) (hformat : style.format = .json)
    (t : Int) (channel point : String) (data : Option Record)
    (hdata : ∀ d ∈ data, d.value.Legible) :
    (∀ text, line style (.ofInt t) channel point data = .ok text →
      (∀ c ∈ text.toList, 0x20 ≤ c.toNat) ∧
      Json.read? text = some (.object
        ([("channel", .string channel), ("point", .string point)] ++
          (data.map (fun d => ("data", d.value.written))).toList ++
          if style.timestamps then [("timestamp", .number (.ofInt t))] else []))) ∧
    ((style.timestamps = true → t.natAbs ≤ Instant.reach) →
      ∃ text, line style (.ofInt t) channel point data = .ok text) := by
  have hown := ownJson_of_legible hdata
  constructor
  · intro text htext
    constructor
    · obtain ⟨own, -, rfl⟩ := eq_text_of_line hformat htext
      rw [Json.text, String.toList_ofList]
      exact Json.printable_chars _
    · obtain ⟨own, hread, hfields⟩ := read?_of_line hformat htext
      obtain rfl := Except.ok.inj (hown.symm.trans hread)
      rw [hfields, lineFields_of_line htext, map_spelled_of_legible hdata]
      cases data with
      | none => rfl
      | some d => rfl
  · intro hreach
    have hlate : ¬ (style.timestamps = true ∧ ¬ InReach (.ofInt t)) := by
      rintro ⟨htime, hnot⟩
      exact hnot ((inReach_ofInt_iff t).mpr (hreach htime))
    obtain ⟨time, hstamp⟩ := exists_stamp_of_not_late hlate
    rw [line_of_json hstamp hformat, lineJson_eq, hown]
    exact ⟨_, rfl⟩

/-- A quote, a line break and a backslash, the least integer of 53 bits, and missing values next to
others, under a clock before 1970. -/
theorem a_json_line_with_missing_values :
    let data : Record := { entries := [("least", .number (.ofInt (-9007199254740992))),
      ("gone", .absent), ("items", .array [.function, .null, .string "\x00\\"]),
      ("inner", .record [("call", .function), ("on", .bool true)])] }
    let style : Style := { format := .json, timestamps := true }
    data.value.Legible ∧
      ∃ text, line style (.ofInt (-1)) "a\"b" "c\nd" (some data) = .ok text ∧
        (∀ c ∈ text.toList, 0x20 ≤ c.toNat) ∧
        Json.read? text = some (.object [("channel", .string "a\"b"), ("point", .string "c\nd"),
          ("data", .object [("least", .number (.ofInt (-9007199254740992))),
            ("items", .array [.null, .null, .string "\x00\\"]),
            ("inner", .object [("on", .bool true)])]),
          ("timestamp", .number (.ofInt (-1)))]) := by
  intro data style
  have hdata : ∀ d ∈ some data, d.value.Legible := by
    intro d hd
    cases hd
    decide +kernel
  obtain ⟨hread, hmade⟩ :=
    a_json_line_is_read_as_what_was_traced style rfl (-1) "a\"b" "c\nd" (some data) hdata
  obtain ⟨text, htext⟩ := hmade (fun _ => by decide)
  obtain ⟨hprintable, hfields⟩ := hread text htext
  exact ⟨hdata data rfl, text, htext, hprintable, hfields⟩

end BuildFeed.Trace
