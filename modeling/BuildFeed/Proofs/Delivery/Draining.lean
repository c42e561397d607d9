-- How long a drain takes. A failed notification is told by at most one message, and a message that
-- fails is told on standard error and not sent again. So beside the failures that wait, just the
-- messages that fail on the way have to be dealt with, and these are no more than the notifications
-- that wait.
import BuildFeed.Proofs.Delivery.Accounts

namespace BuildFeed

variable {δ : Type} {logger : Logger}

/-! ## Kinds of failures and sends -/

/-- Whether a failure is one of a notification. -/
def Failure.isOfNotice : Failure → Bool
  | .notice _ _ => true
  | .logMessage _ _ => false

/-- Whether a send is one of a log message. -/
def Outgoing.isMessage : Outgoing δ → Bool
  | .notice _ => false
  | .logMessage _ _ => true

/-- How many log messages fail among sends made one after the other. -/
def Connection.failedMessages (c : Connection) (sends : List (Outgoing δ)) : Nat :=
  (c.delivers sends).countP (fun (o, accepted) => o.isMessage && !accepted)

/-! ## Dealing with failures one by one -/

namespace Post

/-- The failure that has waited longest, and the post after it has been dealt with. -/
def deal? (logger : Logger) (p : Post δ) : Option (Failure × Post δ) :=
  match p.waiting with
  | [] => none
  | f :: rest => some (f, { p with waiting := rest }.handle logger f)

/-- Deal with up to `n` failures: those that were dealt with, and the post after the last. -/
def deals (logger : Logger) : Nat → Post δ → List Failure × Post δ
  | 0, p => ([], p)
  | n + 1, p =>
    match p.deal? logger with
    | none => ([], p)
    | some (f, after) =>
      let (dealt, last) := deals logger n after
      (f :: dealt, last)

end Post

/-! ## What is sent to tell of failures -/

/-- What is sent over the connection to tell of failures, the first failure first. -/
def Failure.sends (logger : Logger) (fs : List Failure) : List (Outgoing δ) :=
  Event.sends (consequences logger fs)

namespace Failure

variable {f : Failure} {fs : List Failure}

theorem sends_cons (f : Failure) (fs : List Failure) :
    sends (δ := δ) logger (f :: fs) = sends logger [f] ++ sends logger fs := by
  unfold sends
  rw [← Event.sends_append, ← consequences_append, List.singleton_append]

/-- Only a logger over the connection sends anything, messages that tell of notifications. -/
theorem of_consequence?_eq_sent {o : Outgoing δ} (h : f.consequence? logger = some (.sent o)) :
    f.isOfNotice = true ∧ o.isMessage = true ∧ ∃ label, logger = .connection label := by
  unfold consequence? tale? at h
  split at h
  · cases f with
    | notice method reason =>
      cases logger with
      | silent => cases h
      | recorder => cases h
      | connection label =>
        cases h
        exact ⟨rfl, rfl, label, rfl⟩
    | logMessage message reason => cases h
  · cases h

theorem mem_sends {o : Outgoing δ} (h : o ∈ sends logger fs) :
    ∃ f ∈ fs, f.consequence? logger = some (.sent o) := by
  unfold sends Event.sends consequences at h
  obtain ⟨e, he, hsent⟩ := List.mem_filterMap.mp h
  obtain ⟨f, hmem, hf⟩ := List.mem_filterMap.mp he
  cases e <;> cases hsent
  exact ⟨f, hmem, hf⟩

theorem isMessage_of_mem_sends (logger : Logger) (fs : List Failure) :
    ∀ o ∈ sends (δ := δ) logger fs, o.isMessage = true := by
  intro o ho
  obtain ⟨f, -, hf⟩ := mem_sends ho
  exact (of_consequence?_eq_sent hf).2.1

theorem sends_of_no_connection (h : ∀ label, logger ≠ .connection label) (fs : List Failure) :
    sends (δ := δ) logger fs = [] := by
  rw [List.eq_nil_iff_forall_not_mem]
  intro o ho
  obtain ⟨f, -, hf⟩ := mem_sends ho
  obtain ⟨label, hlabel⟩ := (of_consequence?_eq_sent hf).2.2
  exact h label hlabel

/-- A failure of a notification is told by one send at most, and one of a log message by none. -/
theorem length_sends_le (logger : Logger) (f : Failure) :
    (sends (δ := δ) logger [f]).length ≤ if f.isOfNotice then 1 else 0 := by
  cases hsends : sends (δ := δ) logger [f] with
  | nil => exact Nat.zero_le _
  | cons o os =>
    have ho : o ∈ sends logger [f] := hsends ▸ List.mem_cons_self
    obtain ⟨f', hf', htells⟩ := mem_sends ho
    obtain rfl := List.mem_singleton.mp hf'
    rw [if_pos (of_consequence?_eq_sent htells).1, ← hsends]
    calc _ ≤ (consequences (δ := δ) logger [f']).length := List.length_filterMap_le _ _
      _ ≤ [f'].length := List.length_filterMap_le _ _

theorem length_sends_le_countP (logger : Logger) (fs : List Failure) :
    (sends (δ := δ) logger fs).length ≤ fs.countP isOfNotice := by
  induction fs with
  | nil => exact Nat.le_refl 0
  | cons f rest ih =>
    rw [sends_cons, List.length_append, List.countP_cons]
    have hfirst := length_sends_le (δ := δ) logger f
    omega

theorem length_eq_countP (fs : List Failure) :
    fs.length = fs.countP isOfNotice + fs.countP isOfMessage := by
  induction fs with
  | nil => rfl
  | cons f rest ih =>
    rw [List.length_cons, List.countP_cons, List.countP_cons, ih]
    cases f <;> simp [isOfNotice, isOfMessage] <;> omega

end Failure

namespace Connection

variable {c : Connection} {os : List (Outgoing δ)}

/-- Of messages, as many fail as are told to fail. -/
theorem length_failures (h : ∀ o ∈ os, o.isMessage = true) (c : Connection) :
    (c.failures os).length = c.failedMessages os := by
  unfold failedMessages
  induction os generalizing c with
  | nil => rfl
  | cons o rest ih =>
    rw [failures, List.length_append, delivers, List.countP_cons,
      ih (fun o ho => h o (List.mem_cons_of_mem _ ho))]
    simp only [h o List.mem_cons_self]
    cases c.next.1 <;> simp [Outcome.failure?, Outcome.isAccepted, Nat.add_comm]

/-- The failures of messages are not those of notifications. -/
theorem countP_failures (h : ∀ o ∈ os, o.isMessage = true) (c : Connection) :
    (c.failures os).countP Failure.isOfNotice = 0 := by
  induction os generalizing c with
  | nil => rfl
  | cons o rest ih =>
    rw [failures, List.countP_append, ih (fun o ho => h o (List.mem_cons_of_mem _ ho))]
    cases o with
    | notice n => cases h (.notice n) List.mem_cons_self
    | logMessage type message =>
      cases c.next.1.failure? <;> simp [Outgoing.failed, Failure.isOfNotice]

theorem failedMessages_le (c : Connection) (os : List (Outgoing δ)) :
    c.failedMessages os ≤ os.length := by
  calc c.failedMessages os ≤ (c.delivers os).length := List.countP_le_length
    _ = os.length := by rw [← List.length_map Prod.fst, map_fst_delivers]

end Connection

/-! ## One failure dealt with -/

namespace Post

variable {p : Post δ} {f : Failure} {rest : List Failure}

theorem waiting_handle (logger : Logger) (f : Failure) (p : Post δ) :
    (p.handle logger f).waiting =
      p.waiting ++ p.connection.failures (Failure.sends (δ := δ) logger [f]) := by
  rw [handle_eq]
  cases hf : f.consequence? (δ := δ) logger with
  | none => simp [Failure.sends, Failure.consequences, hf, Event.sends, Connection.failures]
  | some e => simp [Failure.sends, Failure.consequences, hf, waiting_happen]

theorem connection_handle (logger : Logger) (f : Failure) (p : Post δ) :
    (p.handle logger f).connection =
      p.connection.after (Failure.sends (δ := δ) logger [f]) := by
  rw [handle_eq]
  cases hf : f.consequence? (δ := δ) logger with
  | none => simp [Failure.sends, Failure.consequences, hf, Event.sends, Connection.after]
  | some e => simp [Failure.sends, Failure.consequences, hf, connection_happen]

theorem events_handle (hm : p.connection.marks = true) (logger : Logger) (f : Failure) :
    (p.handle logger f).events = p.events ++ Failure.consequences logger [f] := by
  rw [handle_eq]
  cases hf : f.consequence? (δ := δ) logger with
  | none => simp [Failure.consequences, hf]
  | some e => simp [Failure.consequences, hf, events_happen hm]

theorem deals_of_nil (hw : p.waiting = []) (n : Nat) : p.deals logger n = ([], p) := by
  cases n with
  | zero => rfl
  | succ n => simp [deals, deal?, hw]

theorem deals_of_cons (hw : p.waiting = f :: rest) (n : Nat) :
    p.deals logger (n + 1) =
      (f :: (({ p with waiting := rest }.handle logger f).deals logger n).1,
        (({ p with waiting := rest }.handle logger f).deals logger n).2) := by
  simp [deals, deal?, hw]

/-! ## All failures dealt with -/

/-- These are the failures that a drain deals with, one after the other: those that wait, and then
those that come up on the way. -/
structure Drains (logger : Logger) (p : Post δ) (dealt : List Failure) : Prop where
  dealt_eq : dealt = p.waiting ++ p.connection.failures (Failure.sends (δ := δ) logger dealt)
  deals_fst : ∀ n, (p.deals logger n).1 = dealt.take n
  waits : ∀ n, (p.deals logger n).2.waiting = [] ↔ dealt.length ≤ n
  drained : (p.deals logger dealt.length).2 = p.drain logger
  connection : (p.drain logger).connection = p.connection.after (Failure.sends (δ := δ) logger dealt)
  events : p.connection.marks = true →
    (p.drain logger).events = p.events ++ Failure.consequences logger dealt

theorem drains_of_nil (logger : Logger) (hw : p.waiting = []) : Drains logger p [] where
  dealt_eq := by rw [hw]; rfl
  deals_fst n := by rw [deals_of_nil hw, List.take_nil]
  waits n := by simp [deals_of_nil hw, hw]
  drained := (drain_of_nil logger hw).symm
  connection := by rw [drain_of_nil logger hw]; rfl
  events _ := by
    rw [drain_of_nil logger hw]
    exact (List.append_nil _).symm

theorem Drains.cons (hw : p.waiting = f :: rest) {dealt : List Failure}
    (h : Drains logger ({ p with waiting := rest }.handle logger f) dealt) :
    Drains logger p (f :: dealt) where
  dealt_eq := by
    rw [Failure.sends_cons, Connection.failures_append, hw]
    have hdealt := h.dealt_eq
    rw [waiting_handle, connection_handle, List.append_assoc] at hdealt
    exact congrArg (f :: ·) hdealt
  deals_fst n := by
    cases n with
    | zero => rfl
    | succ n => rw [deals_of_cons hw, h.deals_fst, List.take_succ_cons]
  waits n := by
    cases n with
    | zero => simp [deals, hw]
    | succ n => rw [deals_of_cons hw, h.waits, List.length_cons, Nat.succ_le_succ_iff]
  drained := by rw [List.length_cons, deals_of_cons hw, h.drained, drain_of_cons logger hw]
  connection := by
    rw [drain_of_cons logger hw, h.connection, connection_handle, Failure.sends_cons f dealt,
      Connection.after_append]
  events hm := by
    have hmarks : ({ p with waiting := rest } : Post δ).connection.marks = true := hm
    have hafter : ({ p with waiting := rest }.handle logger f).connection.marks = true := by
      rw [connection_handle, Connection.marks_after]
      exact hm
    rw [drain_of_cons logger hw, h.events hafter, events_handle hmarks, List.append_assoc,
      ← Failure.consequences_append, List.singleton_append]

theorem exists_drains (logger : Logger) (p : Post δ) : ∃ dealt, Drains logger p dealt := by
  fun_induction Post.drain logger p with
  | case1 p hw => exact ⟨[], drains_of_nil logger hw⟩
  | case2 p f rest hw ih =>
    obtain ⟨dealt, hdealt⟩ := ih
    exact ⟨f :: dealt, hdealt.cons hw⟩

theorem Drains.length_eq {dealt : List Failure} (h : Drains logger p dealt) :
    dealt.length =
      p.waiting.length + p.connection.failedMessages (Failure.sends (δ := δ) logger dealt) := by
  have hlength := congrArg List.length h.dealt_eq
  rwa [List.length_append,
    Connection.length_failures (Failure.isMessage_of_mem_sends logger dealt)] at hlength

/-- No more messages can fail than there are notifications to tell of, and these all wait from the
start. -/
theorem Drains.failedMessages_le {dealt : List Failure} (h : Drains logger p dealt) :
    p.connection.failedMessages (Failure.sends (δ := δ) logger dealt) ≤
      p.waiting.countP Failure.isOfNotice := by
  have hnotices := congrArg (List.countP Failure.isOfNotice) h.dealt_eq
  rw [List.countP_append,
    Connection.countP_failures (Failure.isMessage_of_mem_sends logger dealt)] at hnotices
  calc _ ≤ (Failure.sends (δ := δ) logger dealt).length := Connection.failedMessages_le _ _
    _ ≤ dealt.countP Failure.isOfNotice := Failure.length_sends_le_countP logger dealt
    _ = p.waiting.countP Failure.isOfNotice := hnotices

/-! ## The law -/

/-- A drain always ends, whatever waits and however the sends end. It deals with the failures of
notifications that wait, with those of messages that wait, and with one more for each message that
fails on the way, and then nothing waits. The messages that fail on the way are no more than the
notifications, and there are none unless the logger sends over the connection. -/
theorem a_drain_ends_when_all_that_fail_are_dealt_with (logger : Logger) (p : Post δ) :
    ∃ dealt : List Failure,
      let sends : List (Outgoing δ) := Failure.sends logger dealt
      let notices := p.waiting.countP Failure.isOfNotice
      let messages := p.waiting.countP Failure.isOfMessage
      let failed := p.connection.failedMessages sends
      dealt.length = notices + messages + failed ∧
        failed ≤ notices ∧
        ((∀ label, logger ≠ .connection label) → failed = 0) ∧
        (∀ n, (p.deals logger n).1 = dealt.take n) ∧
        (∀ n, (p.deals logger n).2.waiting = [] ↔ notices + messages + failed ≤ n) ∧
        (p.deals logger (notices + messages + failed)).2 = p.drain logger ∧
        (p.drain logger).waiting = [] ∧
        (p.drain logger).connection = p.connection.after sends ∧
        (p.connection.marks = true →
          (p.drain logger).events = p.events ++ Failure.consequences logger dealt) := by
  obtain ⟨dealt, h⟩ := exists_drains logger p
  have hlength := h.length_eq
  rw [Failure.length_eq_countP p.waiting] at hlength
  refine ⟨dealt, hlength, h.failedMessages_le, ?_, h.deals_fst, ?_, ?_, waiting_drain logger p,
    h.connection, h.events⟩
  · intro hno
    simp only [Failure.sends_of_no_connection hno]
    rfl
  · simp only [← hlength]
    exact h.waits
  · rw [← hlength]
    exact h.drained

/-- A message, the start of a task and an empty publication over a connection on which every send
fails, with a logger that sends over the same connection. Five failures are dealt with. -/
theorem a_drain_ends_where_every_send_fails :
    let logger : Logger := .connection "[job]"
    let start : TaskStart :=
      { task := { id := "1" }, eventTime := 5, message := "Compiling", target := ⟨"file:///t"⟩ }
    let publication : Publish Nat :=
      { document := ⟨"file:///a"⟩, target := ⟨"file:///t"⟩, diagnostics := [] }
    let p := (({ connection := .scripted [.rejected (.plain "full")] } : Post Nat).run {} logger
      [.log .info "started", .notify (.taskStart start), .notify (.publish publication)]).2
    p.waiting.countP Failure.isOfNotice = 2 ∧ p.waiting.countP Failure.isOfMessage = 1 ∧
      p.connection.marks = true ∧
      ∃ dealt : List Failure, dealt.length = 5 ∧
        p.connection.failedMessages (Failure.sends (δ := Nat) logger dealt) = 2 ∧
        (p.deals logger 4).2.waiting ≠ [] ∧ (p.deals logger 5).2 = p.drain logger ∧
        (p.drain logger).events = p.events ++ Failure.consequences logger dealt := by
  intro logger start publication p
  have hnotices : p.waiting.countP Failure.isOfNotice = 2 := by decide +kernel
  have hmessages : p.waiting.countP Failure.isOfMessage = 1 := by decide +kernel
  have hmarks : p.connection.marks = true := by decide +kernel
  have hfour : (p.deals logger 4).2.waiting.length ≠ 0 := by decide +kernel
  have hfive : (p.deals logger 5).2.waiting.length = 0 := by decide +kernel
  obtain ⟨dealt, hlength, -, -, -, hwaits, hlast, -, -, hevents⟩ :=
    a_drain_ends_when_all_that_fail_are_dealt_with logger p
  have hmore : ¬ _ ≤ 4 := fun h => hfour (List.length_eq_zero_iff.mpr ((hwaits 4).mpr h))
  have henough := (hwaits 5).mp (List.length_eq_zero_iff.mp hfive)
  rw [hnotices, hmessages] at hlength hlast hmore henough
  have hfailed :
      p.connection.failedMessages (Failure.sends (δ := Nat) logger dealt) = 2 := by
    omega
  rw [hfailed] at hlength hlast
  exact ⟨hnotices, hmessages, hmarks, dealt, hlength, hfailed,
    fun h => hfour (List.length_eq_zero_iff.mpr h), hlast, hevents hmarks⟩

end Post

end BuildFeed
