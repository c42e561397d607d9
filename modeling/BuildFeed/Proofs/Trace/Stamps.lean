-- The time in front of a pretty line and the time in a JSON line are the same: both give the clock to
-- the millisecond, one as a date with a time of day, the other as a number.
import BuildFeed.Proofs.Instant.Reading
import BuildFeed.Proofs.Trace.JsonLines

namespace BuildFeed.Trace

/-- The calendar shows an integer clock as it is. -/
theorem ofClock?_ofInt {t : Int} (h : t.natAbs ≤ Instant.reach) :
    Instant.ofClock? (.ofInt t) = some t := by
  have hunit : (Number.unit : Int) ≠ 0 :=
    Int.natCast_ne_zero.mpr (Nat.pos_iff_ne_zero.mp Number.unit_pos)
  have hwithin : (t * (Number.unit : Int)).natAbs ≤ Instant.reach * Number.unit := by
    rw [Int.natAbs_mul, Int.natAbs_natCast]
    exact Nat.mul_le_mul_right _ h
  rw [Number.ofInt_of_le (Nat.le_trans h reach_le_wholeReach), Instant.ofClock?, if_pos hwithin,
    Number.truncated?, Int.mul_tdiv_cancel t hunit]

variable {style : Style}

theorem stamp_ofInt (htime : style.timestamps = true) {t : Int} (h : t.natAbs ≤ Instant.reach) :
    stamp style (.ofInt t) = .ok ('[' :: (Instant.chars t ++ [']', ' '])) := by
  unfold stamp
  rw [if_pos htime, ofClock?_ofInt h]

/-- Different clocks have different stamps. -/
theorem eq_of_stamp_eq (htime : style.timestamps = true) {t t' : Int}
    (h : t.natAbs ≤ Instant.reach) (h' : t'.natAbs ≤ Instant.reach)
    (heq : stamp style (.ofInt t) = stamp style (.ofInt t')) : t = t' := by
  rw [stamp_ofInt htime h, stamp_ofInt htime h', Except.ok.injEq, List.cons.injEq] at heq
  exact Instant.eq_of_chars_eq h h' (List.append_cancel_right heq.2)

theorem lookup_timestamp (htime : style.timestamps = true) (time : Json) (channel point : String)
    (own : Option Json) :
    (lineFields style time channel point own).lookup "timestamp" = some time := by
  unfold lineFields
  rw [if_pos htime]
  cases own with
  | none => rfl
  | some j => rfl

/-- The stamp of an integer clock that the calendar reaches is an instant of the Gregorian calendar in
UTC, with a year of four digits from 0 to 9999 and else of a sign and six, and all of its parts are in
their ranges. It lies just as many milliseconds from the start of 1970 as the clock shows, which is what
a JSON line gives as its time. So no two clocks have one stamp. -/
theorem a_stamp_is_the_clock_to_the_millisecond (style : Style) (htime : style.timestamps = true)
    (t : Int) (h : t.natAbs ≤ Instant.reach) (channel point : String) (data : Option Record) :
    ∃ text moment,
      Instant.Moment.read? text = some moment ∧ moment.Valid ∧ moment.instant = t ∧
      stamp style (.ofInt t) = .ok ('[' :: (text ++ [']', ' '])) ∧
      (style.format = .pretty → line style (.ofInt t) channel point data =
        .ok (String.ofList
          ('[' :: (text ++ [']', ' ']) ++ label channel point ++ shownData (data.getD {})))) ∧
      (style.format = .json → ∀ written, line style (.ofInt t) channel point data = .ok written →
        ∃ fields, Json.read? written = some (.object fields) ∧
          fields.lookup "timestamp" = some (.number (.ofInt moment.instant))) ∧
      ∀ t' : Int, t'.natAbs ≤ Instant.reach →
        stamp style (.ofInt t') = stamp style (.ofInt t) → t' = t := by
  have hstamp := stamp_ofInt htime h
  refine ⟨Instant.chars t, Instant.moment t, Instant.read?_chars h, Instant.valid_moment t,
    Instant.instant_moment t, hstamp, ?pretty, ?json, ?apart⟩
  case pretty =>
    intro hformat
    exact line_of_pretty hstamp hformat
  case json =>
    intro hformat written hwritten
    obtain ⟨own, -, hread⟩ := read?_of_line hformat hwritten
    rw [lineFields_of_line hwritten] at hread
    refine ⟨_, hread, ?_⟩
    rw [lookup_timestamp htime, Instant.instant_moment]
  case apart =>
    intro t' h' heq
    exact eq_of_stamp_eq htime h' h heq

/-- The last millisecond of the year before year 0, on a pretty line and on a JSON line. -/
theorem a_stamp_before_year_0 :
    let t : Int := -62167219200001
    t.natAbs ≤ Instant.reach ∧
      (∃ moment : Instant.Moment,
        Instant.Moment.read? "-000001-12-31T23:59:59.999Z".toList = some moment ∧ moment.Valid ∧
          moment.instant = t) ∧
      line { timestamps := true } (.ofInt t) "store" "append" none =
        .ok "[-000001-12-31T23:59:59.999Z] [store.append]" ∧
      ∃ written fields,
        line { format := .json, timestamps := true } (.ofInt t) "store" "append" none = .ok written ∧
          Json.read? written = some (.object fields) ∧
          fields.lookup "timestamp" = some (.number (.ofInt t)) := by
  intro t
  have h : t.natAbs ≤ Instant.reach := by decide
  obtain ⟨text, moment, hread, hvalid, hinstant, hstamp, hpretty, -, -⟩ :=
    a_stamp_is_the_clock_to_the_millisecond { timestamps := true } rfl t h "store" "append" none
  obtain ⟨-, moment', -, -, hinstant', -, -, hjson, -⟩ :=
    a_stamp_is_the_clock_to_the_millisecond { format := .json, timestamps := true } rfl t h "store"
      "append" none
  have htext : text = "-000001-12-31T23:59:59.999Z".toList := by
    rw [stamp_ofInt rfl h, Except.ok.injEq, List.cons.injEq] at hstamp
    rw [← List.append_cancel_right hstamp.2]
    decide +kernel
  subst htext
  have hmade : ∃ written,
      line { format := .json, timestamps := true } (.ofInt t) "store" "append" none = .ok written := by
    rw [line_of_json (stamp_ofInt rfl h) rfl]
    exact ⟨_, rfl⟩
  obtain ⟨written, hwritten⟩ := hmade
  obtain ⟨fields, hfields, htimestamp⟩ := hjson rfl written hwritten
  rw [hinstant'] at htimestamp
  exact ⟨h, ⟨moment, hread, hvalid, hinstant⟩, hpretty rfl, written, fields, hwritten, hfields,
    htimestamp⟩

end BuildFeed.Trace
