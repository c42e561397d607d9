-- Trace lines that cannot go wrong. All that a session itself traces is texts and numbers. Both can
-- be written in either format, so such a line fails only where the calendar does not reach the
-- clock.
import BuildFeed.Attempt

namespace BuildFeed

namespace Trace

/-- Texts and numbers, which have a form of their own in every format. -/
def Value.isPlain : Value → Bool
  | .string _ => true
  | .number _ => true
  | _ => false

/-! ## Plain data as JSON -/

theorem Value.json?_of_isPlain {v : Value} (h : v.isPlain = true) :
    ∃ j, v.json? = .ok (some j) := by
  cases v with
  | string s => exact ⟨.string s, by simp [Value.json?]⟩
  | number x => exact ⟨.number x, by simp [Value.json?]⟩
  | _ => simp [Value.isPlain] at h

theorem Value.present_of_isPlain {data : Data} (h : ∀ e ∈ data, e.2.isPlain = true) :
    ∃ fields, Value.present (Value.jsonEntries data) = .ok fields := by
  induction data with
  | nil => exact ⟨[], by simp [Value.jsonEntries, Value.present]⟩
  | cons e rest ih =>
    obtain ⟨key, v⟩ := e
    obtain ⟨j, hj⟩ := Value.json?_of_isPlain (h (key, v) List.mem_cons_self)
    obtain ⟨fields, hf⟩ := ih (fun e he => h e (List.mem_cons_of_mem _ he))
    exact ⟨(key, j) :: fields, by simp [Value.jsonEntries, Value.present, hj, hf]⟩

theorem Value.json?_record_of_isPlain {data : Data} (h : ∀ e ∈ data, e.2.isPlain = true) :
    ∃ j, (Value.record data).json? = .ok j := by
  obtain ⟨fields, hf⟩ := Value.present_of_isPlain h
  rw [Value.json?, hf]
  split
  · exact ⟨_, rfl⟩
  · exact ⟨_, rfl⟩

/-! ## Lines of plain data -/

theorem stamp_of_reached {style : Style} {clock : Number}
    (htime : style.timestamps = true → (Instant.ofClock? clock).isSome = true) :
    ∃ time, stamp style clock = .ok time := by
  unfold stamp
  split
  · rename_i hshown
    obtain ⟨t, ht⟩ := Option.isSome_iff_exists.mp (htime hshown)
    exact ⟨_, by rw [ht]⟩
  · exact ⟨_, rfl⟩

theorem lineJson_of_isPlain (style : Style) (clock : Number) (channel point : String) {data : Data}
    (h : ∀ e ∈ data, e.2.isPlain = true) :
    ∃ j, lineJson style clock channel point (some { entries := data }) = .ok j := by
  obtain ⟨j, hj⟩ := Value.json?_record_of_isPlain h
  simp only [lineJson, Record.value, hj]
  exact ⟨_, rfl⟩

theorem line_of_isPlain {style : Style} {clock : Number}
    (htime : style.timestamps = true → (Instant.ofClock? clock).isSome = true)
    (channel point : String) {data : Data} (h : ∀ e ∈ data, e.2.isPlain = true) :
    ∃ text, line style clock channel point (some { entries := data }) = .ok text := by
  obtain ⟨time, ht⟩ := stamp_of_reached htime
  obtain ⟨j, hj⟩ := lineJson_of_isPlain style clock channel point h
  unfold line
  rw [ht]
  cases style.format with
  | json => exact ⟨j.text, by simp only [hj]; rfl⟩
  | pretty => exact ⟨_, rfl⟩

/-! ## Lines that cannot be written -/

/-- No line can be written on the channel: it is on, its lines show the time, and the calendar does
not reach the clock. -/
def Setup.Late (setup : Setup) (channel : Channel) : Prop :=
  setup.switches.isOn channel.name = true ∧ setup.style.timestamps = true ∧
    Instant.ofClock? setup.clock = none

instance (setup : Setup) (channel : Channel) : Decidable (setup.Late channel) :=
  inferInstanceAs (Decidable (_ ∧ _))

theorem Setup.Timely.not_late {setup : Setup} (hs : setup.Timely) (channel : Channel) :
    ¬ setup.Late channel := by
  rintro ⟨-, hshown, hclock⟩
  have hreached := hs hshown
  rw [hclock] at hreached
  cases hreached

theorem Setup.note_of_late {setup : Setup} {channel : Channel} (h : setup.Late channel)
    (point : String) (data : Option Record) :
    setup.note channel point data = .error .clockOutOfReach := by
  obtain ⟨hon, hshown, hclock⟩ := h
  have hstamp : stamp setup.style setup.clock = .error .clockOutOfReach := by
    unfold stamp
    rw [if_pos hshown, hclock]
  unfold Setup.note line
  rw [if_pos hon, hstamp]
  rfl

/-- Plain data can be traced wherever a line can be written at all. -/
theorem Setup.note_of_not_late {setup : Setup} {channel : Channel} (hl : ¬ setup.Late channel)
    (point : String) {data : Data} (h : ∀ e ∈ data, e.2.isPlain = true) :
    ∃ written, setup.note channel point (some { entries := data }) = .ok written := by
  unfold Setup.note
  split
  · rename_i hon
    have htime : setup.style.timestamps = true →
        (Instant.ofClock? setup.clock).isSome = true := by
      intro hshown
      rw [Option.isSome_iff_ne_none]
      exact fun hclock => hl ⟨hon, hshown, hclock⟩
    obtain ⟨text, ht⟩ := line_of_isPlain htime channel.name point h
    exact ⟨_, by rw [ht]; rfl⟩
  · exact ⟨[], rfl⟩

/-- While the calendar reaches the clock, plain data can be traced. -/
theorem Setup.note_of_isPlain {setup : Setup} (hs : setup.Timely) (channel : Channel)
    (point : String) {data : Data} (h : ∀ e ∈ data, e.2.isPlain = true) :
    ∃ written, setup.note channel point (some { entries := data }) = .ok written :=
  Setup.note_of_not_late (hs.not_late channel) point h

end Trace

/-! ## Attempts that trace -/

namespace Attempt

variable {σ α β : Type}

/-- Whether or not its line can be written, a note leaves the state that it was given. -/
theorem note_state (setup : Trace.Setup) (channel : Trace.Channel) (point : String)
    (data : Trace.Data) (state : σ) (value : α) :
    (note setup channel point data state value).state = state := by
  unfold note
  split
  · rfl
  · rfl

/-- A note that goes well has the value that it was given. -/
theorem eq_of_note_ok {setup : Trace.Setup} {channel : Trace.Channel} {point : String}
    {data : Trace.Data} {state : σ} {value x : α}
    (h : (note setup channel point data state value).result = .ok x) : x = value := by
  unfold note at h
  split at h
  · exact (Except.ok.inj h).symm
  · cases h

/-- Whether a note of plain data goes well depends on nothing but whether a line can be written. -/
theorem note_result (setup : Trace.Setup) (channel : Trace.Channel) (point : String)
    {data : Trace.Data} (h : ∀ e ∈ data, e.2.isPlain = true) (state : σ) (value : α) :
    (note setup channel point data state value).result =
      if setup.Late channel then .error .clockOutOfReach else .ok value := by
  unfold note
  split
  · rename_i written hw
    by_cases hl : setup.Late channel
    · rw [Trace.Setup.note_of_late hl] at hw
      cases hw
    · rw [if_neg hl]
  · rename_i e he
    by_cases hl : setup.Late channel
    · rw [Trace.Setup.note_of_late hl] at he
      cases he
      rw [if_pos hl]
    · obtain ⟨written, hw⟩ := Trace.Setup.note_of_not_late hl point h
      cases hw.symm.trans he

theorem note_of_isPlain {setup : Trace.Setup} (hs : setup.Timely) (channel : Trace.Channel)
    (point : String) {data : Trace.Data} (h : ∀ e ∈ data, e.2.isPlain = true) (state : σ)
    (value : α) : (note setup channel point data state value).result = .ok value := by
  rw [note_result setup channel point h, if_neg (hs.not_late channel)]

/-- After a result, the rest of an attempt decides what it leaves and what it comes to. -/
theorem andThen_of_ok {a : Attempt σ α} {x : α} (next : σ → α → Attempt σ β)
    (h : a.result = .ok x) :
    (a.andThen next).state = (next a.state x).state ∧
      (a.andThen next).result = (next a.state x).result := by
  unfold andThen
  rw [h]
  exact ⟨rfl, rfl⟩

end Attempt

end BuildFeed
