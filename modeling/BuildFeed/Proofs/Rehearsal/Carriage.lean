-- What a connection carries. A send leaves its mark and comes back whatever becomes of it, so until
-- failed sends are dealt with nobody on the stage can tell how sends end. And where recorders take
-- what is handed over a connection carries the same, in the same order.
import BuildFeed.Proofs.Rehearsal.SideBySide
import BuildFeed.Rehearsal.Comparison

namespace BuildFeed.Rehearsal

open Session (Handover)

variable {view view' : Event Diagnostic → Option (Event Diagnostic)} {p q : Post Diagnostic}

/-! ## Posts with the same in view -/

/-- Two posts over connections with scripts, whatever these are, with the same in view. -/
structure Matched (view view' : Event Diagnostic → Option (Event Diagnostic))
    (p q : Post Diagnostic) : Prop where
  events : p.events.filterMap view = q.events.filterMap view'
  left : isScripted p.connection = true
  right : isScripted q.connection = true

theorem Matched.mark {e e' : Event Diagnostic} (he : view e = view' e')
    (h : Matched view view' p q) : Matched view view' (p.mark e) (q.mark e') := by
  refine ⟨?_, h.left, h.right⟩
  unfold Post.mark
  rw [List.filterMap_append, List.filterMap_append, h.events, List.filterMap_cons,
    List.filterMap_cons, he]
  rfl

theorem Matched.markTraced {written written' : List Trace.Written}
    (hw : (written.map Event.traced).filterMap view = (written'.map Event.traced).filterMap view')
    (h : Matched view view' p q) :
    Matched view view' (p.markTraced written) (q.markTraced written') := by
  refine ⟨?_, h.left, h.right⟩
  unfold Post.markTraced
  rw [List.filterMap_append, List.filterMap_append, h.events, hw]

theorem filterMap_traced (hview : ∀ line, view (.traced line) = none)
    (written : List Trace.Written) : (written.map Event.traced).filterMap view = [] := by
  refine List.filterMap_eq_nil_iff.mpr fun e he => ?_
  obtain ⟨line, -, rfl⟩ := List.mem_map.mp he
  exact hview line

/-- Trace lines that are out of view may be written on one side alone. -/
theorem Matched.traced_left (h : Matched view view' p q)
    (hview : ∀ line, view (.traced line) = none) (written : List Trace.Written) :
    Matched view view' (p.markTraced written) q := by
  refine ⟨?_, h.left, h.right⟩
  unfold Post.markTraced
  rw [List.filterMap_append, filterMap_traced hview, List.append_nil]
  exact h.events

/-- A send is in view as its mark, however it ends. -/
theorem Matched.send_left (h : Matched view view' p q) {o : Outgoing Diagnostic}
    {e : Event Diagnostic} (he : view (.sent o) = view' e) (failed : Reason → Failure) :
    Matched view view' (p.send o failed) (q.mark e) := by
  refine ⟨?_, isScripted_send h.left o failed, h.right⟩
  rw [Post.events_send (marks_of_isScripted h.left)]
  exact (h.mark he).events

theorem Matched.send_both (h : Matched view view' p q) {o : Outgoing Diagnostic}
    (ho : view (.sent o) = view' (.sent o)) (failed : Reason → Failure) :
    Matched view view' (p.send o failed) (q.send o failed) := by
  refine ⟨?_, isScripted_send h.left o failed, isScripted_send h.right o failed⟩
  rw [Post.events_send (marks_of_isScripted h.left), Post.events_send (marks_of_isScripted h.right)]
  exact (h.mark ho).events

theorem Matched.dispose (h : Matched view view' p q) :
    Matched view view' { p with connection := p.connection.dispose }
      { q with connection := q.connection.dispose } := by
  rw [dispose_of_isScripted h.left, dispose_of_isScripted h.right]
  exact h

/-! ## Steps with the same in view -/

/-- Both connections have scripts. -/
def BothScripted (p q : Post Diagnostic) : Prop :=
  isScripted p.connection = true ∧ isScripted q.connection = true

variable {watched : Moment → Bool} {cast cast' : Cast} {s t : Stage}

theorem abreast_fresh (h : Abreast watched BothScripted s t) :
    Abreast watched (Matched view view') s.fresh t.fresh :=
  ⟨h.session, h.clock, h.seen, ⟨rfl, h.post.1, h.post.2⟩⟩

theorem report_through {r r' : Result Session.Answer}
    (h : Alike watched (Matched view view') r r') :
    (report r).through view = (report r').through view' := by
  unfold Report.through report
  simp only [h.stage.post.events, h.result, h.stage.session]

/-- Step for step the reports show the same, and the drains leave the stages abreast whatever they
bring up. -/
theorem play_through (ht : Tandem watched False (Matched view view') cast cast')
    {interruptions : List Interruption} (hall : Admitted watched False interruptions)
    (steps : List Step) (h : Abreast watched BothScripted s t) :
    outsideDrains steps ((play cast interruptions steps s).1.map (Report.through view)) =
      outsideDrains steps ((play cast' interruptions steps t).1.map (Report.through view')) := by
  induction steps generalizing s t with
  | nil => rfl
  | cons step rest ih =>
    have hfresh : Abreast watched (Matched view view') s.fresh t.fresh := abreast_fresh h
    unfold play
    simp only [List.map_cons, outsideDrains_cons]
    by_cases hdrain : step = .drain
    · subst hdrain
      rw [if_pos rfl, if_pos rfl]
      congr 1
      · unfold report Report.through doStep
        have hsession : s.fresh.session = t.fresh.session := hfresh.session
        simp only [hsession]
      · exact ih ⟨hfresh.session, hfresh.clock, hfresh.seen,
          isScripted_drain hfresh.post.left _, isScripted_drain hfresh.post.right _⟩
    · rw [if_neg hdrain, if_neg hdrain]
      have hdone := doStep_alike ht (occur_alike ht hall) (fun heq => hdrain heq) hfresh
      rw [report_through hdone]
      congr 1
      have hstage := hdone.stage
      exact ih ⟨hstage.session, hstage.clock, hstage.seen, hstage.post.left, hstage.post.right⟩

/-- Options for the same job and clock are refused together, and otherwise the stages that they open
are abreast. -/
theorem rehearse_through (options options' : Options) {setup setup' : Trace.Setup}
    {client client' : Client} (hjob : options.job = options'.job)
    (hclock : options.clock = options'.clock)
    (ht : Tandem watched False (Matched view view')
      { job := options.job, setup, logger := options.logger.getD .silent, client }
      { job := options'.job, setup := setup', logger := options'.logger.getD .silent,
        client := client' })
    {interruptions : List Interruption} (hall : Admitted watched False interruptions)
    (outcomes outcomes' : List Outcome) (steps : List Step) :
    (rehearse options setup client (.scripted outcomes) interruptions steps).map
        (fun done => outsideDrains steps (done.1.map (Report.through view))) =
      (rehearse options' setup' client' (.scripted outcomes') interruptions steps).map
        (fun done => outsideDrains steps (done.1.map (Report.through view'))) := by
  unfold rehearse opening Options.settle
  rw [← hjob, ← hclock]
  rw [← hjob] at ht
  split
  · rfl
  · split
    · rfl
    · refine congrArg Except.ok (play_through ht hall steps ?_)
      exact ⟨rfl, rfl, fun m hm => rfl, rfl, rfl⟩

/-! ## How sends end -/

/-- A client that writes over a connection, side by side with itself over another. -/
theorem tandem_of_connection (hclient : cast.client = .connection) :
    Tandem watched False (Matched some some) cast cast where
  job := rfl
  wall := rfl
  state _ _ := rfl
  result _ _ := rfl
  trace _ _ _ _ h := h.markTraced rfl
  sign _ _ _ _ h := h.mark rfl
  give := by
    intro handover s t _ h
    cases handover with
    | log level message =>
      unfold give Post.log
      cases cast.logger with
      | silent => exact h
      | recorder => exact h.mark rfl
      | connection label => exact h.send_both rfl _
    | notify n =>
      unfold give Post.notify
      simp only [hclient]
      split
      · exact h
      · exact (h.markTraced rfl).send_both rfl _
  answer h s t := by rw [give_answer cast h s t]
  drain _ _ hno := hno.elim
  dispose _ _ h := h.dispose

theorem through_some : Report.through some = id := by
  funext r
  unfold Report.through
  rw [List.filterMap_some]
  rfl

/-- Rehearsals over connections whose sends end in different ways differ in nothing but what comes
up while failed sends are dealt with. Every other step has the same events and the same value or
error, and after every step, a drain too, the counts and the documents are the same. -/
theorem how_sends_end_is_felt_by_no_step (options : Options) (setup : Trace.Setup)
    (outcomes outcomes' : List Outcome) {interruptions : List Interruption}
    (hno : ∀ i ∈ interruptions, Step.drain ∉ i.steps) (steps : List Step) :
    (rehearse options setup .connection (.scripted outcomes) interruptions steps).map
        (fun done => outsideDrains steps done.1) =
      (rehearse options setup .connection (.scripted outcomes') interruptions steps).map
        (fun done => outsideDrains steps done.1) := by
  have hall : Admitted (fun _ => true) False interruptions := fun i hi => ⟨rfl, hno i hi⟩
  have htandem : Tandem (fun _ => true) False (Matched some some)
      { job := options.job, setup, logger := options.logger.getD .silent, client := .connection }
      { job := options.job, setup, logger := options.logger.getD .silent, client := .connection } :=
    tandem_of_connection rfl
  have hsame := rehearse_through options options rfl rfl htandem hall outcomes outcomes' steps
  simpa only [through_some, List.map_id] using hsame

/-- A start, a problem that comes up while the clock is read, and a finish. With every send refused,
and with every send accepted, they look the same until the failed sends are dealt with. -/
theorem a_refused_start_is_felt_by_no_step :
    let options : Options :=
      { job := { target := ⟨"file:///t"⟩, name := "t", task := { id := "1" } }
        logger := some (.connection "[job]"), clock := some (.readings [5]) }
    let setup : Trace.Setup := { switches := ⟨["client"]⟩ }
    let p : Problem :=
      { severity := .warning, message := "unused", position := { file := some "/a" } }
    let interruptions : List Interruption :=
      [{ moment := .now, nth := 1, steps := [.call (.ownProblem p), .ask .tally] }]
    let steps : List Step := [.call .start, .drain, .call .finish]
    let played (outcomes : List Outcome) :=
      rehearse options setup .connection (.scripted outcomes) interruptions steps
    let lengths (outcomes : List Outcome) :=
      (played outcomes).map fun done => done.1.map fun r => r.events.length
    (∀ i ∈ interruptions, Step.drain ∉ i.steps) ∧
      lengths [] = .ok [10, 0, 4] ∧ lengths [.thrown (.plain "full")] = .ok [10, 5, 4] ∧
      (played []).map (fun done => outsideDrains steps done.1) =
        (played [.thrown (.plain "full")]).map (fun done => outsideDrains steps done.1) := by
  intro options setup p interruptions steps played lengths
  have hno : ∀ i ∈ interruptions, Step.drain ∉ i.steps := by decide +kernel
  refine ⟨hno, by decide +kernel, by decide +kernel, ?_⟩
  exact how_sends_end_is_felt_by_no_step options setup [] [.thrown (.plain "full")] hno steps

/-! ## What recorders are given -/

/-- A client and a logger that write over a connection, side by side with two recorders. Only the
reading of the clock is a moment for both. -/
theorem tandem_of_recorders {label : String} (hclient : cast.client = .connection)
    (hlogger : cast.logger = .connection label) (hclient' : cast'.client = .recorder)
    (hlogger' : cast'.logger = .recorder) (hjob : cast.job = cast'.job)
    (hsetup : cast.setup = cast'.setup) (htimely : cast.setup.Timely) :
    Tandem (· = .now) False (Matched Event.untraced? (Event.carried? label)) cast cast' where
  job := hjob
  wall := by rw [hsetup]
  state _ _ := by rw [hjob, hsetup]
  result _ _ := by rw [hjob, hsetup]
  trace _ _ _ _ h := by
    refine h.markTraced ?_
    rw [filterMap_traced fun _ => rfl, filterMap_traced fun _ => rfl]
  sign := by
    intro e p q he h
    cases e with
    | now time => exact h.mark rfl
    | called step => exact h.mark rfl
    | returned step answer => exact h.mark rfl
    | _ => cases he
  give := by
    intro handover s t _ h
    cases handover with
    | log level message =>
      unfold give Post.log
      simp only [hlogger, hlogger']
      exact h.send_left rfl _
    | notify n =>
      obtain ⟨written, hnotify⟩ := Post.notify_of_timely htimely n s.post
      unfold give
      simp only [hclient, hclient', hnotify]
      exact (h.traced_left (fun _ => rfl) written).send_left rfl _
  answer := by
    intro handover s t
    cases handover with
    | log level message =>
      unfold give
      simp only [hlogger, hlogger']
      cases level <;> rfl
    | notify n =>
      obtain ⟨written, hnotify⟩ := Post.notify_of_timely htimely n s.post
      unfold give
      simp only [hclient, hclient', hnotify]
      cases n <;> rfl
  drain _ _ hno := hno.elim
  dispose _ _ h := h.dispose

/-- A rehearsal over a connection, however its sends end, held against one with recorders. But for
trace lines every step that is no drain has the events of the other in the same order, each
notification and each log message sent in place of being recorded, and the same value or error.
The counts and the documents are the same after every step. -/
theorem a_connection_carries_what_recorders_are_given (options : Options) (label : String)
    {setup : Trace.Setup} (htimely : setup.Timely) (outcomes outcomes' : List Outcome)
    {interruptions : List Interruption}
    (hnow : ∀ i ∈ interruptions, i.moment = .now ∧ Step.drain ∉ i.steps) (steps : List Step) :
    (rehearse { options with logger := some (.connection label) } setup .connection
        (.scripted outcomes) interruptions steps).map
        (fun done => outsideDrains steps (done.1.map (Report.through Event.untraced?))) =
      (rehearse { options with logger := some .recorder } setup .recorder
        (.scripted outcomes') interruptions steps).map
        (fun done => outsideDrains steps (done.1.map (Report.through (Event.carried? label)))) := by
  have hall : Admitted (· = .now) False interruptions := by
    intro i hi
    obtain ⟨hmoment, hno⟩ := hnow i hi
    exact ⟨decide_eq_true hmoment, hno⟩
  have htandem : Tandem (· = .now) False (Matched Event.untraced? (Event.carried? label))
      { job := options.job, setup, logger := .connection label, client := .connection }
      { job := options.job, setup, logger := .recorder, client := .recorder } :=
    tandem_of_recorders rfl rfl rfl rfl rfl rfl htimely
  exact rehearse_through { options with logger := some (.connection label) }
    { options with logger := some .recorder } rfl rfl htandem hall outcomes outcomes' steps

/-- The same start, problem and finish with a connection that is full and with recorders, and the numbers
that the protocol gives to the messages of the four levels. -/
theorem a_full_connection_carries_a_start_and_a_problem :
    let options : Options :=
      { job := { target := ⟨"file:///t"⟩, name := "t", task := { id := "1" } }
        clock := some (.readings [5]) }
    let setup : Trace.Setup := { switches := ⟨["client"]⟩, style := { timestamps := true } }
    let p : Problem :=
      { severity := .warning, message := "unused", position := { file := some "/a" } }
    let interruptions : List Interruption :=
      [{ moment := .now, nth := 1, steps := [.call (.ownProblem p), .call .start] }]
    let steps : List Step := [.call .start, .drain, .call .finish]
    let outcomes : List Outcome := [.thrown (.plain "full")]
    let carrying :=
      (rehearse { options with logger := some (.connection "[job]") } setup .connection
        (.scripted outcomes) interruptions steps).map
        (fun done => outsideDrains steps (done.1.map (Report.through Event.untraced?)))
    let recording :=
      (rehearse { options with logger := some .recorder } setup .recorder
        (.scripted []) interruptions steps).map
        (fun done => outsideDrains steps (done.1.map (Report.through (Event.carried? "[job]"))))
    let summary : Outgoing Diagnostic → String × Nat × String
      | .notice n => (n.method, 0, "")
      | .logMessage type message => (logMethod, type.number, message)
    setup.Timely ∧ (∀ i ∈ interruptions, i.moment = .now ∧ Step.drain ∉ i.steps) ∧
      carrying = recording ∧
      recording.map (fun reports =>
          reports.map fun r => (Event.sends r.events).map summary) =
        .ok [
          [("build/publishDiagnostics", 0, ""),
            ("build/logMessage", 4, "[job] [task] 1 start ignored: already started"),
            ("build/logMessage", 3, "[job] [task] 1 started target=t"), ("build/taskStart", 0, "")],
          [],
          [("build/logMessage", 3, "[job] [task] 1 finished target=t errors=0 warnings=1"),
            ("build/taskFinish", 0, "")]] ∧
      (Event.sends ([Level.error, .warn, .info, .log].filterMap fun level =>
          Event.carried? "[job]" (.logged level "full"))).map summary =
        [("build/logMessage", 1, "[job] full"), ("build/logMessage", 2, "[job] full"),
          ("build/logMessage", 3, "[job] full"), ("build/logMessage", 4, "[job] full")] := by
  intro options setup p interruptions steps outcomes carrying recording summary
  have htimely : setup.Timely := by decide +kernel
  have hnow : ∀ i ∈ interruptions, i.moment = .now ∧ Step.drain ∉ i.steps := by decide +kernel
  refine ⟨htimely, hnow, ?_, by decide +kernel, by decide +kernel⟩
  exact a_connection_carries_what_recorders_are_given options "[job]" htimely outcomes [] hnow steps

end BuildFeed.Rehearsal
