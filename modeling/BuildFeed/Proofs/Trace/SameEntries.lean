-- Pretty lines and JSON lines show the same entries in the same order. A JSON line leaves out those whose
-- value has no JSON form, and otherwise nothing is moved, dropped or said twice.
import BuildFeed.Proofs.Entries.Order
import BuildFeed.Proofs.Trace.JsonLines

namespace BuildFeed.Trace

namespace Value

/-! ## What JSON leaves out -/

/-- Whether JSON leaves an entry with this value out: the value has no place there, or it is a record
that answers for itself. -/
def isLeftOut (v : Value) : Bool := v.isMissing || v.answersItself

/-- Of ordinary values only those are left out that are none. -/
theorem isLeftOut_of_ordinary {v : Value} (h : v.Ordinary) : v.isLeftOut = v.isMissing := by
  cases v with
  | record entries =>
    have hspecial : isSpecial (.record entries) = false := (Bool.or_eq_false_iff.mp h).1
    rw [isLeftOut, answersItself_of_not_isSpecial hspecial, Bool.or_false]
  | heir parent entries => cases h
  | _ => rfl

theorem isSome_of_map {β : Type} {r : Except Fault β} {f : β → Json} {j : Option Json}
    (h : r.map (fun x => some (f x)) = .ok j) : j.isSome = true := by
  cases r with
  | error e => cases h
  | ok x =>
    cases h
    rfl

/-- A record that can be written has a JSON form unless it answers for itself. -/
theorem isSome_of_record {v : Value} {r : Except Fault (List (String × Json))} {j : Option Json}
    (hv : v.isMissing = false)
    (h : (if v.answersItself then .ok none else r.map (fun fields => some (.object fields))) = .ok j) :
    j.isSome = !v.isLeftOut := by
  rw [isLeftOut, hv, Bool.false_or]
  split at h
  · rename_i hanswers
    cases h
    rw [hanswers]
    rfl
  · rename_i hanswers
    rw [isSome_of_map h, Bool.eq_false_iff.mpr hanswers]
    rfl

/-- A value that can be written has a JSON form unless it is left out. -/
theorem isSome_of_json? {v : Value} {j : Option Json} (h : v.json? = .ok j) :
    j.isSome = !v.isLeftOut := by
  cases v with
  | array items =>
    rw [json?] at h
    exact isSome_of_map h
  | record entries =>
    rw [json?] at h
    exact isSome_of_record rfl h
  | heir parent entries =>
    rw [json?] at h
    exact isSome_of_record rfl h
  | integer n =>
    rw [json?] at h
    cases h
  | cyclic =>
    rw [json?] at h
    cases h
  | _ =>
    rw [json?] at h
    cases h
    rfl

/-- The fields that are written are those of the entries that are not left out. -/
theorem keys_of_present {entries : List (String × Value)} {fields : List (String × Json)}
    (h : present (jsonEntries entries) = .ok fields) :
    fields.map Prod.fst = (entries.filter (fun e => !e.2.isLeftOut)).map Prod.fst := by
  induction entries generalizing fields with
  | nil =>
    rw [jsonEntries, present] at h
    cases h
    rfl
  | cons e rest ih =>
    obtain ⟨key, x⟩ := e
    rw [jsonEntries] at h
    unfold present at h
    split at h
    · cases h
    · cases h
    · rename_i hx hrest
      cases h
      have hout : x.isLeftOut = true := by simpa using isSome_of_json? hx
      simp [hout, ih hrest]
    · rename_i hx hrest
      cases h
      have hout : x.isLeftOut = false := by simpa using isSome_of_json? hx
      simp [hout, ih hrest]

end Value

/-! ## Lines -/

variable {style : Style} {clock : Number} {channel point : String}

theorem lookup_data (style : Style) (time : Json) (channel point : String) (own : Option Json) :
    (lineFields style time channel point own).lookup "data" = own := by
  unfold lineFields
  cases own with
  | none => split <;> rfl
  | some j => rfl

theorem answersItself_of_keys {entries : List (String × Value)}
    (h : ∀ e ∈ entries, e.1 ≠ Value.parentKey ∧ e.1 ≠ "toJSON") :
    Value.answersItself (.record entries) = false := by
  apply Value.answersItself_of_not_isSpecial
  apply List.any_eq_false.mpr
  intro e he
  simpa using h e he

/-- The data of a JSON line are read with the keys of all entries that are not left out. -/
theorem keys_of_line {entries : List (String × Value)}
    (hkeys : ∀ e ∈ entries, e.1 ≠ Value.parentKey ∧ e.1 ≠ "toJSON") (hformat : style.format = .json)
    {text : String} (h : line style clock channel point (some { entries }) = .ok text) :
    ∃ fields own, Json.read? text = some (.object fields) ∧
      fields.lookup "data" = some (.object own) ∧
      own.map Prod.fst = (entries.filter (fun e => !e.2.isLeftOut)).map Prod.fst := by
  obtain ⟨own, hown, hread⟩ := read?_of_line hformat h
  have hjson : (Value.record entries).json? = .ok own := hown
  rw [Value.json?, answersItself_of_keys hkeys] at hjson
  cases hpresent : Value.present (Value.jsonEntries entries) with
  | error e =>
    rw [hpresent] at hjson
    cases hjson
  | ok fields =>
    rw [hpresent] at hjson
    cases hjson
    refine ⟨_, Json.spelledFields fields, hread, ?_, ?_⟩
    · rw [lookup_data, Option.map_some, Json.spelled]
    · rw [Json.spelledFields_eq_map, List.map_map]
      exact Value.keys_of_present hpresent

/-! ## The law -/

/-- Pretty lines and JSON lines of assigned data have the same entries. Each assigned key stands once and
has the value that it was given last; the array indices come first and ascend, and the others follow as
they were assigned first. A pretty line shows all of them, and only where nothing was assigned, or
where there are no data, does it end with its label. A JSON line, if there is one, has their keys in the
same order, but without those whose last value is left out, which of ordinary values are those that
are none. -/
theorem both_formats_have_the_same_entries (style : Style) (clock : Number)
    (channel point : String) (assignments : Data)
    (h : ∀ e ∈ assignments, e.1 ≠ Value.parentKey ∧ e.1 ≠ "toJSON") :
    ∃ data, Record.ofAssignments assignments = .ok data ∧
      Entries.LeftBy assignments data.entries ∧
      (style.format = .pretty → ∀ time, stamp style clock = .ok time →
        line style clock channel point none = .ok (String.ofList (time ++ label channel point)) ∧
        line style clock channel point (some data) =
          .ok (String.ofList (time ++ label channel point ++
            if assignments.isEmpty then []
            else " \x7b ".toList ++ (", ".toList).intercalate
              (data.entries.map (fun e => e.1.toList ++ '=' :: shown e.2)) ++ " \x7d".toList))) ∧
      (style.format = .json → ∀ text, line style clock channel point (some data) = .ok text →
        ∃ fields own, Json.read? text = some (.object fields) ∧
          fields.lookup "data" = some (.object own) ∧
          own.map Prod.fst = (data.entries.filter (fun e => !e.2.isLeftOut)).map Prod.fst ∧
          ((∀ e ∈ assignments, e.2.Ordinary) →
            own.map Prod.fst = (data.entries.filter (fun e => !e.2.isMissing)).map Prod.fst)) := by
  have hmade := Record.ofAssignments_of_ne (fun e he => (h e he).1)
  have hleft := Entries.leftBy_ofAssignments assignments
  refine ⟨_, hmade, hleft, ?pretty, ?json⟩
  case pretty =>
    intro hformat time hstamp
    rw [line_of_pretty hstamp hformat, line_of_pretty hstamp hformat]
    constructor
    · rw [Option.getD_none, shownData_eq]
      simp
    · rw [Option.getD_some, shownData_eq, hleft.isEmpty_eq]
  case json =>
    intro hformat text htext
    have hkeys : ∀ e ∈ Entries.ofAssignments assignments,
        e.1 ≠ Value.parentKey ∧ e.1 ≠ "toJSON" := fun e he => h e (hleft.mem he)
    obtain ⟨fields, own, hread, hdata, hown⟩ := keys_of_line hkeys hformat htext
    refine ⟨fields, own, hread, hdata, hown, ?_⟩
    intro hordinary
    rw [hown]
    congr 1
    apply List.filter_congr
    intro e he
    rw [Value.isLeftOut_of_ordinary (hordinary e (hleft.mem he))]

/-- Two indices among other keys, a key that is assigned twice, and two values that JSON leaves out. -/
theorem two_indices_and_a_key_assigned_twice :
    let assignments : Data :=
      [("b", .bool true), ("10", .absent), ("a", .function), ("2", .string "x"), ("b", .null)]
    (∀ e ∈ assignments, e.1 ≠ Value.parentKey ∧ e.1 ≠ "toJSON") ∧
      ∃ data, Record.ofAssignments assignments = .ok data ∧
        line {} 0 "store" "append" (some data) =
          .ok "[store.append] \x7b 2=\"x\", 10=undefined, b=null, a=undefined \x7d" ∧
        ∃ text fields own, line { format := .json } 0 "store" "append" (some data) = .ok text ∧
          Json.read? text = some (.object fields) ∧ fields.lookup "data" = some (.object own) ∧
          own.map Prod.fst = ["2", "b"] := by
  intro assignments
  have hkeys : ∀ e ∈ assignments, e.1 ≠ Value.parentKey ∧ e.1 ≠ "toJSON" := by
    simp [assignments, Value.parentKey]
  have hentries : Entries.ofAssignments assignments =
      [("2", .string "x"), ("10", .absent), ("b", .null), ("a", .function)] := by
    have hassigned : Entries.assigned assignments =
        [("b", .null), ("10", .absent), ("a", .function), ("2", .string "x")] := rfl
    have hten : Entries.index? "10" = some 10 := by decide
    have htwo : Entries.index? "2" = some 2 := by decide
    have hnames : Entries.index? "a" = none ∧ Entries.index? "b" = none := by decide
    rw [Entries.ofAssignments, Entries.ordered_eq, hassigned]
    simp [List.mergeSort, Entries.before, Entries.isIndex, hten, htwo, hnames]
  have hmade := Record.ofAssignments_of_ne (fun e he => (hkeys e he).1)
  rw [hentries] at hmade
  obtain ⟨data, hdata, -, hpretty, -⟩ :=
    both_formats_have_the_same_entries {} 0 "store" "append" assignments hkeys
  obtain ⟨data', hdata', -, -, hjson⟩ :=
    both_formats_have_the_same_entries { format := .json } 0 "store" "append" assignments hkeys
  obtain rfl := Except.ok.inj (hmade.symm.trans hdata)
  obtain rfl := Except.ok.inj (hmade.symm.trans hdata')
  obtain ⟨fields, own, hread, hown, hkept, -⟩ := hjson rfl _ rfl
  exact ⟨hkeys, _, hmade, (hpretty rfl [] rfl).2, _, fields, own, rfl, hread, hown, hkept⟩

end BuildFeed.Trace
