-- Tracing along any commands. What is in force can be read off the commands themselves: the setting
-- as it was when it was last read, and each part of the style as it was last given. The channels and
-- the names that are asked for come from the same reading, so they never disagree.
import Mathlib.Data.List.DropRight
import BuildFeed.Proofs.Trace.Switches
import BuildFeed.Trace.Panel

namespace BuildFeed.Trace

/-! ## What commands come to -/

/-- What was given last of one kind, if anything was. -/
def lastGiven {α : Type} (given? : Command → Option α) (usual : α) (commands : List Command) : α :=
  (commands.filterMap given?).getLast?.getD usual

/-- What the variable holds once the command has set it. -/
def Command.setting? : Command → Option (Option String)
  | .setSetting value => some (value.map held)
  | _ => none

def Command.format? : Command → Option Format
  | .restyle f _ _ => f
  | _ => none

def Command.timestamps? : Command → Option Bool
  | .restyle _ timestamps _ => timestamps
  | _ => none

def Command.sink? : Command → Option Sink
  | .restyle _ _ sink => sink
  | _ => none

def Command.clock? : Command → Option Number
  | .setClock clock => some clock
  | _ => none

def Command.isRefresh : Command → Bool
  | .refresh => true
  | _ => false

/-- What the variable held when it was last read; at the start it was read and not set. -/
def settingRead (commands : List Command) : Option String :=
  lastGiven Command.setting? none (commands.rdropWhile (fun command => !command.isRefresh))

/-- The style that was given last, part by part. -/
def styleGiven (commands : List Command) : Style :=
  { format := lastGiven Command.format? .pretty commands
    timestamps := lastGiven Command.timestamps? false commands
    sink := lastGiven Command.sink? .stderr commands }

theorem lastGiven_append_singleton {α : Type} (given? : Command → Option α) (usual : α)
    (commands : List Command) (command : Command) :
    lastGiven given? usual (commands ++ [command]) =
      (given? command).getD (lastGiven given? usual commands) := by
  unfold lastGiven
  rw [List.filterMap_append, List.filterMap_cons, List.filterMap_nil]
  cases given? command with
  | none => rw [List.append_nil, Option.getD_none]
  | some x => rw [List.getLast?_concat, Option.getD_some, Option.getD_some]

theorem settingRead_append_refresh (commands : List Command) :
    settingRead (commands ++ [.refresh]) = lastGiven Command.setting? none commands := by
  unfold settingRead
  rw [List.rdropWhile_concat_neg _ _ _ (by simp [Command.isRefresh])]
  exact lastGiven_append_singleton _ _ _ _

theorem settingRead_append_singleton {command : Command} (h : command.isRefresh = false)
    (commands : List Command) : settingRead (commands ++ [command]) = settingRead commands := by
  unfold settingRead
  rw [List.rdropWhile_concat_pos _ _ _ (by simp [h])]

/-- The setting stays what was read until it is read again. -/
theorem settingRead_append {more : List Command} (h : ∀ command ∈ more, command.isRefresh = false)
    (commands : List Command) : settingRead (commands ++ more) = settingRead commands := by
  induction more using List.reverseRecOn with
  | nil => rw [List.append_nil]
  | append_singleton more command ih =>
    rw [← List.append_assoc, settingRead_append_singleton (h command (by simp)),
      ih (fun c hc => h c (List.mem_append_left _ hc))]

namespace Panel

/-- The panel after commands, from a new one on, which is as if it had read that there is no
setting. -/
def afterAll (clock : Number) (commands : List Command) : Panel :=
  commands.foldl after { setup := { clock } }

theorem afterAll_append_singleton (clock : Number) (commands : List Command) (command : Command) :
    afterAll clock (commands ++ [command]) = (afterAll clock commands).after command := by
  simp [afterAll]

/-- The panel that commands come to, read off the commands. -/
theorem afterAll_eq (clock : Number) (commands : List Command) :
    afterAll clock commands =
      { setting := lastGiven Command.setting? none commands
        setup :=
          { switches := Switches.ofSetting (settingRead commands)
            style := styleGiven commands
            clock := lastGiven Command.clock? clock commands }
        writing := Channel.all.filter
          (fun channel => (Switches.ofSetting (settingRead commands)).isOn channel.name) } := by
  induction commands using List.reverseRecOn with
  | nil => rfl
  | append_singleton commands command ih =>
    rw [afterAll_append_singleton, ih]
    unfold styleGiven
    simp only [lastGiven_append_singleton]
    cases command with
    | refresh =>
      rw [settingRead_append_refresh]
      rfl
    | _ =>
      rw [settingRead_append_singleton rfl]
      rfl

/-- A channel does what a trace call on it does, though it was made when the setting was read. -/
theorem outcome_emit (clock : Number) (commands : List Command) (channel : Channel) (point : String)
    (data : Option Record) :
    (afterAll clock commands).outcome (.emit channel point data) =
      ((afterAll clock commands).setup.note channel point data).map
        (fun written => (written, .done)) := by
  have hmade : channel ∈ (afterAll clock commands).writing ↔
      (afterAll clock commands).setup.switches.isOn channel.name = true := by
    rw [afterAll_eq, List.mem_filter]
    exact and_iff_right (by cases channel <;> decide)
  unfold outcome Setup.note
  simp only [hmade]
  split
  · cases line _ _ channel.name point data <;> rfl
  · rfl

/-! ## The law -/

/-- Whatever the commands, a channel tries to write a line just if the setting that was read last turns
it on, and otherwise does nothing and cannot fail. The line is written in the style that was given
last, part by part. Whoever asks whether a name is on gets the answer by the same setting. It is the
one that stood when it was read, and it counts until it is read again. -/
theorem a_channel_writes_as_the_setting_last_read_has_it (clock : Number)
    (commands : List Command) :
    let panel := afterAll clock commands
    let setting := (settingRead commands).getD ""
    let style := styleGiven commands
    let now := lastGiven Command.clock? clock commands
    (∀ channel point data,
      panel.outcome (.emit channel point data) =
        if Enables setting channel.name then
          (line style now channel.name point data).map
            (fun text => ([⟨style.sink, text⟩], .done))
        else .ok ([], .done)) ∧
    (∀ channel : Channel, panel.outcome (.isOn (some channel.name)) =
      .ok ([], .answer (decide (Enables setting channel.name)))) ∧
    (∀ name, name ≠ "" → panel.outcome (.isOn (some name)) =
      .ok ([], .answer (decide (Enables setting (lowerName name))))) ∧
    (∀ more, (∀ command ∈ more, command.isRefresh = false) →
      settingRead (commands ++ more) = settingRead commands ∧
        settingRead (commands ++ .refresh :: more) =
          lastGiven Command.setting? none commands) := by
  intro panel setting style now
  have hpanel := afterAll_eq clock commands
  have hon : ∀ name, panel.setup.switches.isOn name = decide (Enables setting (lowerName name)) := by
    intro name
    rw [Bool.eq_iff_iff, decide_eq_true_iff, ← Switches.isOn_ofSetting]
    simp only [panel, hpanel]
  have hasked : ∀ name, name ≠ "" → panel.outcome (.isOn (some name)) =
      .ok ([], .answer (decide (Enables setting (lowerName name)))) := by
    intro name hname
    rw [← hon, outcome, Switches.answers]
    exact hname
  refine ⟨?_, ?_, hasked, ?_⟩
  · intro channel point data
    have hstyle : panel.setup.style = style := by simp only [panel, hpanel, style]
    have hclock : panel.setup.clock = now := by simp only [panel, hpanel, now]
    rw [outcome_emit]
    change (panel.setup.note channel point data).map _ = _
    unfold Setup.note
    rw [hon, lowerName_channel, hstyle, hclock]
    by_cases hset : Enables setting channel.name
    · rw [if_pos (decide_eq_true hset), if_pos hset]
      cases line style now channel.name point data <;> rfl
    · rw [if_neg (by simpa using hset), if_neg hset]
      rfl
  · intro channel
    rw [hasked channel.name (by cases channel <;> decide), lowerName_channel]
  · intro more hmore
    constructor
    · exact settingRead_append hmore commands
    · rw [List.append_cons, settingRead_append hmore, settingRead_append_refresh]

/-- Two channels are turned on by a setting with blanks and capitals. Then the setting is changed, but
not read again, and a style is given under a clock that the calendar does not reach. -/
theorem a_setting_that_was_changed_and_not_read_again :
    let commands : List Command :=
      [.setSetting (some "store , Client"), .refresh, .setSetting (some "reporter"),
        .restyle (some .json) none (some .custom), .setClock (.ofInt 8640000000000001)]
    let panel := afterAll 0 commands
    let huge : Record := { entries := [("n", .integer 7)] }
    panel.outcome (.emit .client "sent" none) =
        .ok ([⟨.custom, "\x7b\"channel\":\"client\",\"point\":\"sent\"\x7d"⟩], .done) ∧
      panel.outcome (.emit .client "sent" (some huge)) = .error .unwritable ∧
      panel.outcome (.emit .reporter "start" (some huge)) = .ok ([], .done) ∧
      panel.outcome (.isOn (some "STORE")) = .ok ([], .answer true) ∧
      settingRead (commands ++ [.setSetting none]) = settingRead commands ∧
      settingRead (commands ++ [.refresh]) = some "reporter" := by
  intro commands panel huge
  obtain ⟨hemit, -, hasked, hread⟩ :=
    a_channel_writes_as_the_setting_last_read_has_it 0 commands
  refine ⟨?_, ?_, ?_, ?_, (hread [.setSetting none] (by decide)).1, ?_⟩
  · rw [hemit, if_pos (by decide +kernel)]
    rfl
  · rw [hemit, if_pos (by decide +kernel)]
    rfl
  · rw [hemit, if_neg (by decide +kernel)]
  · rw [hasked "STORE" (by decide)]
    decide +kernel
  · rw [(hread [] (by decide)).2]
    decide

/-! ## The question without a name -/

/-- The answer to whoever names no channel tells whether the setting has pieces at all. -/
theorem outcome_isOn_none (clock : Number) (commands : List Command) :
    (afterAll clock commands).outcome (.isOn none) = .ok ([], .answer true) ↔
      (settingRead commands).getD "" ∉ ["", "0", "false"] := by
  rw [afterAll_eq, outcome, Switches.answers, ← Switches.isEmpty_names_ofSetting]
  simp

theorem exists_outcome_isOn_iff (clock : Number) (commands : List Command) :
    (∃ name, name ≠ "" ∧
      (afterAll clock commands).outcome (.isOn (some name)) = .ok ([], .answer true)) ↔
      (settingRead commands).getD "" ∉ ["", "0", "false"] ∧
        ¬ Switches.Vacant ((settingRead commands).getD "") := by
  rw [← Switches.exists_enables_iff]
  refine exists_congr fun name => and_congr_right fun hname => ?_
  rw [← Switches.isOn_ofSetting, afterAll_eq, outcome]
  unfold Switches.answers
  split
  · rename_i hnone
    cases hnone
  · rename_i hempty
    cases hempty
    exact absurd rfl hname
  · rename_i hsome
    cases hsome
    simp

/-- Whoever asks without a name whether anything is on gets the same answer as whoever asks for every
name, unless the setting that was read last has nothing in it but commas and blanks: then the answer
is yes though no name is on. -/
theorem asking_without_a_name_errs_on_vacant_settings_only (clock : Number)
    (commands : List Command) :
    let panel := afterAll clock commands
    let yes := Except.ok (ε := Fault) (([] : List Written), Reply.answer true)
    let setting := (settingRead commands).getD ""
    (¬ Switches.Vacant setting →
      (panel.outcome (.isOn none) = yes ↔
        ∃ name, name ≠ "" ∧ panel.outcome (.isOn (some name)) = yes)) ∧
    (Switches.Vacant setting →
      panel.outcome (.isOn none) = yes ∧
        ¬ ∃ name, name ≠ "" ∧ panel.outcome (.isOn (some name)) = yes) := by
  intro panel yes setting
  have hgeneral := outcome_isOn_none clock commands
  have hnamed := exists_outcome_isOn_iff clock commands
  constructor
  · intro hfilled
    rw [hgeneral, hnamed]
    exact (and_iff_left hfilled).symm
  · intro hvacant
    rw [hgeneral, hnamed]
    constructor
    · intro hno
      exact Switches.not_vacant_of_mem (List.mem_append_left _ hno) hvacant
    · intro hon
      exact hon.2 hvacant

/-- A single comma is read as one name without letters, and that counts as something that is on. -/
theorem a_comma_alone_counts_as_a_name :
    let panel := afterAll 0 [.setSetting (some ","), .refresh]
    panel.outcome (.isOn none) = .ok ([], .answer true) ∧
      ∀ name, name ≠ "" → panel.outcome (.isOn (some name)) ≠ .ok ([], .answer true) := by
  intro panel
  have hread : settingRead [.setSetting (some ","), .refresh] = some "," := by decide
  have hvacant : Switches.Vacant "," := by decide
  constructor
  · rw [outcome_isOn_none, hread]
    decide
  · intro name hname hon
    have hnamed := (exists_outcome_isOn_iff 0 _).mp ⟨name, hname, hon⟩
    rw [hread] at hnamed
    exact hnamed.2 hvacant

end Panel

end BuildFeed.Trace
