-- The accounts of the post. Whatever is done with it, the failures dealt with and those that wait
-- are together the failures of all that was sent, in order. A failure is dealt with by letting its
-- consequence happen, which may be a send and so bring another failure to the end of the queue.
import Mathlib.Data.List.Basic
import BuildFeed.Delivery.Consequences
import BuildFeed.Delivery.Run
import BuildFeed.Proofs.Delivery.Sends

namespace BuildFeed

variable {δ : Type} {logger : Logger} {opening : Connection} {kind : Event δ → Bool}

theorem Connection.failures_append (c : Connection) (os ps : List (Outgoing δ)) :
    c.failures (os ++ ps) = c.failures os ++ (c.after os).failures ps := by
  induction os generalizing c with
  | nil => rfl
  | cons o rest ih =>
    rw [List.cons_append, failures, ih, failures, List.append_assoc]
    rfl

theorem Failure.consequences_append (logger : Logger) (fs gs : List Failure) :
    consequences (δ := δ) logger (fs ++ gs) = consequences logger fs ++ consequences logger gs :=
  List.filterMap_append

/-- Every failure is one of something that was sent. -/
theorem Connection.of_mem_failures {c : Connection} {os : List (Outgoing δ)} {f : Failure}
    (h : f ∈ c.failures os) : ∃ o ∈ os, ∃ reason, f = o.failed reason := by
  induction os generalizing c with
  | nil => cases h
  | cons o rest ih =>
    rw [failures, List.mem_append, Option.mem_toList] at h
    rcases h with h | h
    · obtain ⟨reason, -, rfl⟩ := Option.map_eq_some_iff.mp h
      exact ⟨o, List.mem_cons_self, reason, rfl⟩
    · obtain ⟨o', ho', hfailed⟩ := ih h
      exact ⟨o', List.mem_cons_of_mem _ ho', hfailed⟩

/-! ## One consequence for each failure -/

namespace Failure

variable {f : Failure} {e : Event δ}

theorem lastResort_eq (message text : String) :
    lastResort message text = message ++ "\n(build/logMessage failed: " ++ text ++ ")\n" := by
  have hmethod : "\n(" ++ logMethod ++ " failed: " = "\n(build/logMessage failed: " := by decide
  unfold lastResort
  rw [← hmethod]
  simp only [String.append_assoc]

/-- What tells of a failure tells of it in full, and on standard error just if a log message
failed. -/
theorem toldBy_of_consequence? (h : f.consequence? logger = some e) :
    ToldBy logger f e ∧ e.isConsequence = true ∧ e.isLastResort = f.isOfMessage := by
  unfold consequence? tale? at h
  split at h
  · rename_i text ht
    cases f with
    | notice method reason =>
      have hwords : reason.text = .ok text := ht
      cases logger with
      | silent => cases h
      | recorder =>
        cases h
        exact ⟨.logged rfl hwords, rfl, rfl⟩
      | connection label =>
        cases h
        have hreport : label ++ " " ++ report method text =
            label ++ " " ++ method ++ " failed: " ++ text := by
          unfold report
          simp only [String.append_assoc]
        rw [hreport]
        exact ⟨.sent rfl hwords, rfl, rfl⟩
    | logMessage message reason =>
      have hwords : reason.text = .ok text := ht
      cases h
      rw [lastResort_eq]
      exact ⟨.written hwords, rfl, rfl⟩
  · cases h

theorem exists_consequence? (hw : f.Worded) (hl : logger ≠ .silent ∨ f.isOfMessage = true) :
    ∃ e : Event δ, f.consequence? logger = some e := by
  obtain ⟨text, ht⟩ := hw
  unfold consequence? tale?
  rw [ht]
  cases f with
  | notice method reason =>
    cases logger with
    | silent => exact absurd hl (by simp [isOfMessage])
    | recorder => exact ⟨_, rfl⟩
    | connection label => exact ⟨_, rfl⟩
  | logMessage message reason => exact ⟨_, rfl⟩

variable {of : Failure → Bool} {fs : List Failure}

/-- Where a kind of events tells of just the failures that are picked out, and each of those has a
consequence, they correspond one by one. -/
theorem forall₂_consequences
    (hkind : ∀ f e, f.consequence? logger = some e → kind e = of f)
    (hall : ∀ f ∈ fs, of f = true → ∃ e : Event δ, f.consequence? logger = some e) :
    List.Forall₂ (ToldBy logger) (fs.filter of) ((consequences logger fs).filter kind) := by
  induction fs with
  | nil => exact .nil
  | cons f rest ih =>
    have hrest := ih fun g hg => hall g (List.mem_cons_of_mem _ hg)
    unfold consequences at hrest ⊢
    rw [List.filter_cons, List.filterMap_cons]
    cases hf : f.consequence? (δ := δ) logger with
    | none =>
      have hnot : ¬ of f = true := by
        intro hof
        obtain ⟨e, he⟩ := hall f List.mem_cons_self hof
        rw [hf] at he
        cases he
      rw [if_neg hnot]
      exact hrest
    | some e =>
      rw [List.filter_cons, hkind f e hf]
      split
      · exact .cons (toldBy_of_consequence? hf).1 hrest
      · exact hrest

end Failure

theorem not_told_of_no_event {events : List (Event δ)} (hnone : ∀ e ∈ events, kind e = false)
    (hfailed : opening.failures (Event.sends events) ≠ []) :
    ¬ Told logger opening (fun _ => true) kind events := by
  intro h
  have hno : events.filter kind = [] :=
    List.filter_eq_nil_iff.mpr fun e he => by simp [hnone e he]
  have heach := h.each
  rw [hno, List.forall₂_nil_right_iff, List.filter_true] at heach
  exact hfailed heach

namespace Post

/-! ## What happens at the post -/

/-- Something happens at the post: a send is made, and all else is noted. -/
def happen (e : Event δ) (p : Post δ) : Post δ :=
  match e with
  | .sent o => p.send o o.failed
  | e => p.mark e

variable {p : Post δ}

theorem events_happen (hm : p.connection.marks = true) (e : Event δ) :
    (p.happen e).events = p.events ++ [e] := by
  unfold happen
  split
  · exact events_send hm _ _
  · rfl

theorem connection_happen (e : Event δ) (p : Post δ) :
    (p.happen e).connection = p.connection.after (Event.sends [e]) := by
  unfold happen
  cases e <;> rfl

theorem waiting_happen (e : Event δ) (p : Post δ) :
    (p.happen e).waiting = p.waiting ++ p.connection.failures (Event.sends [e]) := by
  cases e with
  | sent o =>
    unfold happen send
    simp only [Event.sends, Event.sent?, List.filterMap_cons, List.filterMap_nil,
      Connection.failures, List.append_nil]
    split
    · rfl
    · rfl
  | _ => exact (List.append_nil _).symm

/-- A log message happens, unless the logger is silent. -/
def told? (logger : Logger) (level : Level) (message : String) : Option (Event δ) :=
  match logger with
  | .silent => none
  | .recorder => some (.logged level message)
  | .connection label => some (.sent (.logMessage level.messageType (label ++ " " ++ message)))

theorem log_eq (logger : Logger) (level : Level) (message : String) (p : Post δ) :
    p.log logger level message =
      match told? logger level message with
      | some e => p.happen e
      | none => p := by
  cases logger <;> rfl

/-- To deal with a failure is to let its consequence happen. -/
theorem handle_eq (logger : Logger) (f : Failure) (p : Post δ) :
    p.handle logger f =
      match f.consequence? logger with
      | some e => p.happen e
      | none => p := by
  unfold handle Failure.consequence? Failure.tale? Failure.reason
  cases f with
  | notice method reason =>
    simp only
    cases reason.text with
    | error e => rfl
    | ok text => cases logger <;> rfl
  | logMessage message reason =>
    simp only
    cases reason.text <;> rfl

/-! ## The accounts -/

/-- The failures dealt with and those that wait are all failures since the connection was `opening`,
and those dealt with were told, each after its send. `before` is what happened before the events of
the post. -/
structure Accounted (logger : Logger) (opening : Connection) (kind : Event δ → Bool)
    (before : List (Event δ)) (p : Post δ) : Prop where
  marks : p.connection.marks = true
  connection : p.connection = opening.after (Event.sends (before ++ p.events))
  told : ∃ dealt, dealt ++ p.waiting = opening.failures (Event.sends (before ++ p.events)) ∧
    (before ++ p.events).filter kind = (Failure.consequences logger dealt).filter kind
  later : ∀ past e, past ++ [e] <+: before ++ p.events →
    (past ++ [e]).filter kind <+:
      (Failure.consequences logger (opening.failures (Event.sends past))).filter kind

variable {before : List (Event δ)} {e : Event δ}

theorem accounted_opening (hm : opening.marks = true) :
    Accounted logger opening kind [] { connection := opening } where
  marks := hm
  connection := rfl
  told := ⟨[], rfl, rfl⟩
  later := by
    intro past e h
    simp at h

/-- The accounts are still right after one thing more. It is either no news of a failure, or of the
one that was taken off the queue. -/
theorem Accounted.happens (h : Accounted logger opening kind before p)
    {dealt waiting : List Failure}
    (hd : dealt ++ waiting = opening.failures (Event.sends (before ++ p.events)))
    (he : (before ++ p.events ++ [e]).filter kind =
      (Failure.consequences logger dealt).filter kind) :
    Accounted logger opening kind before ({ p with waiting }.happen e) := by
  have hmarks : ({ p with waiting } : Post δ).connection.marks = true := h.marks
  have hevents : before ++ ({ p with waiting }.happen e).events = before ++ p.events ++ [e] := by
    rw [events_happen hmarks, List.append_assoc]
  refine ⟨?_, ?_, ⟨dealt, ?_, ?_⟩, fun past e' hpast => ?_⟩
  · rw [connection_happen, Connection.marks_after]
    exact h.marks
  · rw [hevents, connection_happen, Event.sends_append, Connection.after_append, ← h.connection]
  · rw [hevents, waiting_happen, Event.sends_append, Connection.failures_append, ← hd,
      ← h.connection, List.append_assoc]
  · rw [hevents]
    exact he
  · rw [hevents, List.prefix_concat_iff] at hpast
    rcases hpast with heq | hpast
    · obtain ⟨rfl, hlast⟩ := List.append_inj' heq rfl
      cases hlast
      rw [he, ← hd, Failure.consequences_append, List.filter_append]
      exact List.prefix_append _ _
    · exact h.later past e' hpast

theorem Accounted.happen (h : Accounted logger opening kind before p) (hk : kind e = false) :
    Accounted logger opening kind before (p.happen e) := by
  obtain ⟨dealt, hd, ht⟩ := h.told
  refine h.happens hd ?_
  rw [List.filter_append, ht]
  simp [hk]

theorem Accounted.deal (h : Accounted logger opening kind before p) {f : Failure}
    {rest : List Failure} (hw : p.waiting = f :: rest) :
    Accounted logger opening kind before ({ p with waiting := rest }.handle logger f) := by
  obtain ⟨dealt, hd, ht⟩ := h.told
  rw [hw, List.append_cons] at hd
  rw [handle_eq]
  cases hf : f.consequence? (δ := δ) logger with
  | some e =>
    refine h.happens hd ?_
    rw [List.filter_append, ht, Failure.consequences_append, List.filter_append]
    simp [Failure.consequences, hf]
  | none =>
    refine ⟨h.marks, h.connection, ⟨dealt ++ [f], hd, ?_⟩, h.later⟩
    rw [Failure.consequences_append, List.filter_append]
    simpa [Failure.consequences, hf] using ht

theorem Accounted.drain (h : Accounted logger opening kind before p) :
    Accounted logger opening kind before (p.drain logger) := by
  fun_induction Post.drain logger p with
  | case1 p hw => exact h
  | case2 p f rest hw ih => exact ih (h.deal hw)

theorem waiting_drain (logger : Logger) (p : Post δ) : (p.drain logger).waiting = [] := by
  fun_induction Post.drain logger p with
  | case1 p hw => exact hw
  | case2 p f rest hw ih => exact ih

theorem Accounted.fresh (h : Accounted logger opening kind before p) :
    Accounted logger opening kind (before ++ p.events) p.fresh where
  marks := h.marks
  connection := by simpa [Post.fresh] using h.connection
  told := by simpa [Post.fresh] using h.told
  later := by simpa [Post.fresh] using h.later

/-- Once the queue is empty, the events of a kind are the consequences of that kind of all sends
that failed. -/
theorem Accounted.filter_of_remaining (h : Accounted logger opening kind before p.fresh) :
    (before ++ p.remaining logger).filter kind =
      (Failure.consequences logger
        (opening.failures (Event.sends (before ++ p.remaining logger)))).filter kind := by
  have hdrained : Accounted logger opening kind before (p.fresh.drain logger) := h.drain
  obtain ⟨dealt, hd, ht⟩ := hdrained.told
  rw [waiting_drain, List.append_nil] at hd
  subst hd
  exact ht

/-- Once the queue is empty every failure with a consequence has been told. -/
theorem Accounted.told_of_remaining {of : Failure → Bool}
    (h : Accounted logger opening kind before p.fresh)
    (hkind : ∀ f e, f.consequence? logger = some e → kind e = of f)
    (hall : ∀ f ∈ opening.failures (Event.sends (before ++ p.remaining logger)), of f = true →
      ∃ e : Event δ, f.consequence? logger = some e) :
    Told logger opening of kind (before ++ p.remaining logger) := by
  constructor
  · rw [h.filter_of_remaining]
    exact Failure.forall₂_consequences hkind hall
  · intro past e hpast
    have hlater := h.drain.later past e hpast
    -- What failed up to here is among all that failed.
    have hamong : ∀ f ∈ opening.failures (Event.sends past), of f = true →
        ∃ e : Event δ, f.consequence? logger = some e := by
      obtain ⟨rest, hrest⟩ := (List.prefix_append past [e]).trans hpast
      intro f hf
      refine hall f ?_
      rw [← hrest, Event.sends_append, Connection.failures_append]
      exact List.mem_append_left _ hf
    have hpaired := Failure.forall₂_consequences hkind hamong
    rw [List.prefix_iff_eq_take.mp hlater]
    exact ⟨_, List.take_prefix _ _, List.forall₂_take _ hpaired⟩

/-- With a logger to be told, all failures are told if there are words for each. -/
theorem Accounted.told_all (h : Accounted logger opening Event.isConsequence before p.fresh)
    (hl : logger ≠ .silent)
    (hw : ∀ f ∈ opening.failures (Event.sends (before ++ p.remaining logger)), f.Worded) :
    Told logger opening (fun _ => true) Event.isConsequence (before ++ p.remaining logger) :=
  h.told_of_remaining (fun _ _ ht => (Failure.toldBy_of_consequence? ht).2.1)
    fun f hf _ => Failure.exists_consequence? (hw f hf) (.inl hl)

/-- Whoever the logger is, those of log messages are told on standard error. -/
theorem Accounted.told_messages (h : Accounted logger opening Event.isLastResort before p.fresh)
    (hw : ∀ f ∈ opening.failures (Event.sends (before ++ p.remaining logger)), f.Worded) :
    Told logger opening Failure.isOfMessage Event.isLastResort (before ++ p.remaining logger) :=
  h.told_of_remaining (fun _ _ ht => (Failure.toldBy_of_consequence? ht).2.2)
    fun f hf hof => Failure.exists_consequence? (hw f hf) (.inr hof)

/-- With nobody to be told there are no words at all: none for the log, so no log message can fail,
and then none on standard error. -/
theorem Accounted.wordless_of_silent
    (h : Accounted .silent opening Event.isWord before p.fresh) :
    ∀ e ∈ before ++ p.remaining .silent, e.isWord = false := by
  have hfilter := h.filter_of_remaining
  generalize before ++ p.remaining .silent = events at hfilter ⊢
  have hwritten : ∀ e ∈ events, e.isWord = true → ∃ text, e = .stderr text := by
    intro e he hword
    have hmem : e ∈ events.filter Event.isWord := List.mem_filter.mpr ⟨he, hword⟩
    rw [hfilter, List.mem_filter] at hmem
    obtain ⟨f, -, hf⟩ := List.mem_filterMap.mp hmem.1
    cases (Failure.toldBy_of_consequence? hf).1 with
    | logged hl => cases hl
    | sent hl => cases hl
    | written => exact ⟨_, rfl⟩
  intro e he
  by_contra hword
  rw [Bool.not_eq_false] at hword
  have hmem : e ∈ events.filter Event.isWord := List.mem_filter.mpr ⟨he, hword⟩
  rw [hfilter, List.mem_filter] at hmem
  obtain ⟨f, hf, htells⟩ := List.mem_filterMap.mp hmem.1
  obtain ⟨o, ho, reason, rfl⟩ := Connection.of_mem_failures hf
  cases o with
  | notice n =>
    unfold Failure.consequence? Failure.tale? at htells
    split at htells <;> cases htells
  | logMessage type message =>
    -- A log message that was sent would be words, and not on standard error.
    obtain ⟨e', he', hsent⟩ := List.mem_filterMap.mp ho
    have heq : e' = .sent (.logMessage type message) := by
      cases e' <;> cases hsent
      rfl
    subst heq
    obtain ⟨text, htext⟩ := hwritten _ he' rfl
    cases htext

/-! ## What is done with the post -/

/-- Nothing is of a kind but words. -/
def Spares (kind : Event δ → Bool) : Prop := ∀ e, e.isWord = false → kind e = false

theorem spares_isConsequence : Spares (Event.isConsequence (δ := δ)) := by
  intro e he
  cases e with
  | sent o => cases o <;> first | rfl | cases he
  | _ => first | rfl | cases he

theorem spares_isLastResort : Spares (Event.isLastResort (δ := δ)) := by
  intro e he
  cases e <;> first | rfl | cases he

theorem Accounted.markTraced (h : Accounted logger opening kind before p) (hk : Spares kind)
    (written : List Trace.Written) :
    Accounted logger opening kind before (p.markTraced written) := by
  induction written generalizing p with
  | nil => simpa [Post.markTraced] using h
  | cons line rest ih =>
    have hline : Accounted logger opening kind before (p.happen (.traced line)) :=
      h.happen (hk _ rfl)
    have hrest := ih hline
    unfold Post.markTraced at hrest ⊢
    rw [List.map_cons, List.append_cons]
    exact hrest

theorem Accounted.log (h : Accounted logger opening kind before p) {level : Level}
    {message : String} (hk : ∀ e, told? logger level message = some e → kind e = false) :
    Accounted logger opening kind before (p.log logger level message) := by
  rw [log_eq]
  cases ht : told? (δ := δ) logger level message with
  | none => exact h
  | some e => exact h.happen (hk e ht)

theorem Accounted.notify (h : Accounted logger opening kind before p) (hk : Spares kind)
    (setup : Trace.Setup) (n : Notice δ) :
    Accounted logger opening kind before (p.notify setup n).1 := by
  unfold Post.notify
  simp only
  split
  · exact h
  · exact (h.markTraced hk _).happen (e := .sent (.notice n)) (hk _ rfl)

/-- A message that is not of an error tells of no failure. -/
theorem not_isConsequence_of_told? {level : Level} (hl : level ≠ .error) {message : String}
    (ht : told? logger level message = some e) : e.isConsequence = false := by
  unfold told? at ht
  cases logger with
  | silent => cases ht
  | recorder =>
    cases ht
    cases level <;> first | rfl | exact absurd rfl hl
  | connection label =>
    cases ht
    cases level <;> first | rfl | exact absurd rfl hl

theorem not_isLastResort_of_told? {level : Level} {message : String}
    (ht : told? logger level message = some e) : e.isLastResort = false := by
  unfold told? at ht
  cases logger <;> cases ht <;> rfl

theorem Accounted.perform (h : Accounted logger opening kind before p) (hk : Spares kind)
    (setup : Trace.Setup) {step : Step δ}
    (hlog : ∀ level message, step = .log level message →
      ∀ e, told? logger level message = some e → kind e = false) :
    Accounted logger opening kind before (p.perform setup logger step).1 := by
  cases step with
  | notify n => exact h.notify hk setup n
  | log level message => exact h.log (hlog level message rfl)
  | drain => exact h.drain

theorem Accounted.run (hk : Spares kind) (setup : Trace.Setup) {steps : List (Step δ)}
    (hlog : ∀ level message, .log level message ∈ steps →
      ∀ e, told? logger level message = some e → kind e = false)
    (h : Accounted logger opening kind before p.fresh) :
    Accounted logger opening kind
      (before ++ (p.run setup logger steps).1.flatMap (fun done => done.1))
      (p.run setup logger steps).2.fresh := by
  induction steps generalizing before p with
  | nil => simpa [Post.run] using h
  | cons step rest ih =>
    have hstep : ∀ level message, step = .log level message →
        ∀ e, told? logger level message = some e → kind e = false :=
      fun level message heq => hlog level message (heq ▸ List.mem_cons_self)
    have hdone := h.perform hk setup hstep
    have hrest := ih (fun level message hmem => hlog level message (List.mem_cons_of_mem _ hmem))
      hdone.fresh
    unfold Post.run
    simp only [List.flatMap_cons]
    rwa [← List.append_assoc]

end Post

end BuildFeed
