-- Rehearsals as courses. What the collaborators of a rehearsal do by their script they could do in
-- a course of their own accord, so whatever holds in every course holds in every rehearsal. The
-- course has the same session, and its client is given what the client on the stage is given.
import Mathlib.Data.List.Basic
import BuildFeed.Rehearsal.Play
import BuildFeed.Proofs.Delivery.Replica
import BuildFeed.Proofs.Rehearsal.Given

namespace BuildFeed.Rehearsal

open Session (Course Occasion Move Act Handover OpenCall)

/-! ## Courses that follow a stage -/

/-- The client writes over a connection with a script, and its trace lines can be written. -/
structure Wired (cast : Cast) (opening : Connection) : Prop where
  client : cast.client = .connection
  scripted : isScripted opening = true
  timely : cast.setup.Timely

/-- A course has come as far as a stage with its client. `before` is what happened before the events
on the stage, since the connection was `opening`. -/
structure Follows (cast : Cast) (opening : Connection) (before : List (Event Diagnostic))
    (c : Course) (s : Stage) : Prop where
  session : c.session = s.session
  given : cast.client = .recorder → notices c.past = recorded (before ++ s.post.events)
  connection : Wired cast opening →
    s.post.connection = opening.after (Event.sends (before ++ s.post.events))
  sent : Wired cast opening →
    notices c.past = posted (Event.sends (before ++ s.post.events))

/-- One course can become another by moves of the collaborators. -/
def Leads (cast : Cast) (c d : Course) : Prop :=
  ∃ moves : List Move, moves.foldl (Course.move cast.job cast.setup) c = d

/-- From a course the collaborators can come as far as a stage, with the same calls still open. -/
def Comes (cast : Cast) (opening : Connection) (before : List (Event Diagnostic)) (c : Course)
    (s : Stage) : Prop :=
  ∃ d, Leads cast c d ∧ d.openCalls = c.openCalls ∧ Follows cast opening before d s

/-- Whatever happens at a moment, there are moves for it. -/
def Plays (cast : Cast) (opening : Connection) (occur : Occurrence) : Prop :=
  ∀ before m s c, Follows cast opening before c s → Comes cast opening before c (occur m s).1

variable {cast : Cast} {opening : Connection} {before : List (Event Diagnostic)} {c d : Course}
  {s : Stage}

theorem Leads.refl (cast : Cast) (c : Course) : Leads cast c c := ⟨[], rfl⟩

theorem Leads.trans {e : Course} (h : Leads cast c d) (h' : Leads cast d e) : Leads cast c e := by
  obtain ⟨moves, rfl⟩ := h
  obtain ⟨more, rfl⟩ := h'
  exact ⟨moves ++ more, List.foldl_append⟩

theorem Leads.move (m : Move) : Leads cast c (c.move cast.job cast.setup m) := ⟨[m], rfl⟩

theorem Follows.comes (h : Follows cast opening before c s) : Comes cast opening before c s :=
  ⟨c, .refl cast c, rfl, h⟩

theorem Follows.isScripted (h : Follows cast opening before c s) (hw : Wired cast opening) :
    isScripted s.post.connection = true := by
  rw [h.connection hw]
  exact isScripted_after hw.scripted _

/-- More happens in a course, and the client on the stage is given the notifications of that. -/
theorem Follows.extend (h : Follows cast opening before c s) {d : Course} {es : List Occasion}
    {r : Stage} (hp : d.past = c.past ++ es) (hsession : d.session = r.session)
    (hrecorded : cast.client = .recorder →
      recorded r.post.events = recorded s.post.events ++ notices es)
    (hsent : Wired cast opening →
      ∃ os, Post.Sent s.post os r.post ∧ posted os = notices es) :
    Follows cast opening before d r where
  session := hsession
  given := by
    intro hclient
    rw [hp, notices_append, h.given hclient, recorded_append, recorded_append,
      hrecorded hclient, List.append_assoc]
  connection := by
    intro hw
    obtain ⟨os, hos, -⟩ := hsent hw
    rw [hos.connection, h.connection hw, ← Connection.after_append, Event.sends_append,
      Event.sends_append, hos.events, List.append_assoc]
  sent := by
    intro hw
    obtain ⟨os, hos, hes⟩ := hsent hw
    rw [hp, notices_append, h.sent hw, Event.sends_append, Event.sends_append, hos.events,
      posted_append, posted_append, posted_append, hes, List.append_assoc]

/-- More happens in a course that is no notification, and on the stage nobody is given one. -/
theorem Follows.append (h : Follows cast opening before c s) {d : Course} {es : List Occasion}
    {r : Stage} (hp : d.past = c.past ++ es) (hes : notices es = []) (hr : Quiet s.post r.post)
    (hsession : d.session = r.session) : Follows cast opening before d r := by
  refine h.extend hp hsession (fun _ => ?_) fun hw => ?_
  · rw [hr.given, hes, List.append_nil]
  · obtain ⟨os, hsent, hos⟩ := hr.sent (h.isScripted hw)
    exact ⟨os, hsent, (posted_of_onlyMessages hos).trans hes.symm⟩

/-- On the stage something changes that is neither the session nor a notification. -/
theorem Follows.on (h : Follows cast opening before c s) {r : Stage} (hr : Quiet s.post r.post)
    (hsession : r.session = s.session) : Follows cast opening before c r :=
  h.append (List.append_nil _).symm rfl hr (h.session.trans hsession.symm)

/-! ## Handing over -/

theorem session_give (cast : Cast) (h : Handover) (s : Stage) :
    (give cast h s).1.session = s.session := by
  unfold give
  split
  · rfl
  · split
    · rfl
    · rfl

theorem recorded_give (hclient : cast.client = .recorder) (h : Handover) (n : Nat) (s : Stage) :
    recorded (give cast h s).1.post.events =
      recorded s.post.events ++ notices [.handed n h] := by
  unfold give
  cases h with
  | log level message => exact (recorded_log ..).trans (List.append_nil _).symm
  | notify notice =>
    simp only [hclient]
    exact recorded_append ..

theorem sent_give (hw : Wired cast opening) (hs : isScripted s.post.connection = true)
    (h : Handover) (n : Nat) :
    ∃ os, Post.Sent s.post os (give cast h s).1.post ∧ posted os = notices [.handed n h] := by
  have hmarks := marks_of_isScripted hs
  unfold give
  cases h with
  | log level message =>
    obtain ⟨os, hsent, hos⟩ := Post.sent_log hmarks cast.logger level message
    exact ⟨os, hsent, posted_of_onlyMessages hos⟩
  | notify notice =>
    obtain ⟨q, hq, hsent⟩ := Post.sent_notify hmarks hw.timely notice
    simp only [hw.client, hq]
    exact ⟨_, hsent, rfl⟩

/-- What a call hands over, it hands over on the stage and in the course. -/
theorem Follows.hand (h : Follows cast opening before c s) (handover : Handover) (n : Nat)
    (openCalls : List OpenCall) :
    Follows cast opening before { c.note (.handed n handover) with openCalls }
      (give cast handover s).1 :=
  h.extend rfl (h.session.trans (session_give ..).symm)
    (fun hclient => recorded_give hclient handover n s)
    fun hw => sent_give hw (h.isScripted hw) handover n

theorem handOver_comes {occur : Occurrence} (hplays : Plays cast opening occur)
    (h : Follows cast opening before c s) (handover : Handover) (n : Nat)
    (openCalls : List OpenCall) :
    Comes cast opening before { c.note (.handed n handover) with openCalls }
      (handOver cast occur handover s).1 := by
  have hgiven := h.hand handover n openCalls
  unfold handOver
  rcases hgive : give cast handover s with ⟨r, e | m | m⟩
  · rw [hgive] at hgiven
    exact hgiven.comes
  · rw [hgive] at hgiven
    exact hgiven.comes
  · rw [hgive] at hgiven
    exact hplays before m r _ hgiven

/-! ## Calls -/

/-- The end of a call that has come to a result. -/
def ending (n : Nat) : Except Fault Unit → Occasion
  | .ok () => .returned n
  | .error e => .failed n e

/-- A call on the stage that has been put aside in the course fails there. -/
theorem Follows.raise (h : Follows cast opening before c s) {o : OpenCall} {rest : List OpenCall}
    (ho : c.openCalls = o :: rest) (e : Fault) :
    ∃ d, Leads cast c d ∧ d.openCalls = rest ∧ Follows cast opening before d s ∧
      d.past.getLast? = some (ending o.number (.error e)) := by
  have hmove : c.move cast.job cast.setup (.raise e) = _ := Course.move_raise ho e
  refine ⟨c.move cast.job cast.setup (.raise e), .move _, ?_, ?_, ?_⟩
  · rw [hmove]
  · rw [hmove]
    exact h.append rfl rfl (.refl _) h.session
  · rw [hmove]
    simp [ending]

/-- What a call still has to do on the stage, it can do in the course. -/
theorem finishActs_comes {occur : Occurrence} (hplays : Plays cast opening occur) (n : Nat)
    (call : Session.Call) (todo : List Act) (h : Follows cast opening before c s) :
    ∃ d, Leads cast (c.proceed n call todo) d ∧ d.openCalls = c.openCalls ∧
      Follows cast opening before d (finishActs cast occur todo s).1 ∧
      d.past.getLast? = some (ending n (finishActs cast occur todo s).2) := by
  induction todo generalizing c s with
  | nil =>
    refine ⟨c.note (.returned n), .refl cast _, rfl, h.append rfl rfl (.refl _) h.session, ?_⟩
    simp [Course.note, finishActs, ending]
  | cons act rest ih =>
    cases act with
    | count severity =>
      exact ih (h.append (List.append_nil _).symm rfl (.refl _)
        (congrArg (Session.counted severity) h.session))
    | hand handover =>
      obtain ⟨d, hleads, hopen, hfollows⟩ :=
        handOver_comes hplays h handover n (⟨n, call, .back handover rest⟩ :: c.openCalls)
      unfold finishActs
      rcases hdone : handOver cast occur handover s with ⟨r, e | done⟩
      · rw [hdone] at hfollows
        obtain ⟨d', hleads', hopen', hfollows', hlast⟩ := hfollows.raise hopen e
        exact ⟨d', hleads.trans hleads', hopen', hfollows', hlast⟩
      · rw [hdone] at hfollows
        have hback : d.move cast.job cast.setup .back =
            ({ d with openCalls := c.openCalls }.note (.cameBack n)).proceed n call rest := by
          simp [Course.move, hopen]
        have hcame :
            Follows cast opening before
              ({ d with openCalls := c.openCalls }.note (.cameBack n)) r :=
          hfollows.append rfl rfl (.refl _) hfollows.session
        obtain ⟨d', hleads', hopen', hfollows', hlast⟩ := ih hcame
        refine ⟨d', hleads.trans (.trans (.move .back) ?_), hopen', hfollows', hlast⟩
        rw [hback]
        exact hleads'

theorem readClock_follows (h : Follows cast opening before c s) :
    Follows cast opening before c (readClock cast s).2.1 := by
  unfold readClock
  simp only
  split
  · exact h.on (.refl _) rfl
  · exact h.on (quiet_mark rfl rfl _) rfl

/-- Let a moment pass, if there is one. -/
def pass (occur : Occurrence) (s : Stage) : Option Moment → Result Unit
  | some m => occur m s
  | none => (s, .ok ())

/-- Go on with the time that was asked for, unless asking has ended in an error. -/
def goOn (cast : Cast) (occur : Occurrence) (use : Session.TimeUse) (time : Number) :
    Result Unit → Result Unit
  | (s, .error e) => (s, .error e)
  | (s, .ok ()) =>
    finishActs cast occur (s.session.told cast.job use time).2
      { s with session := (s.session.told cast.job use time).1 }

theorem finishPlan_askTime (cast : Cast) (occur : Occurrence) (use : Session.TimeUse) (s : Stage) :
    finishPlan cast occur (.askTime use) s =
      goOn cast occur use (readClock cast s).1
        (pass occur (readClock cast s).2.1 (readClock cast s).2.2) := by
  unfold finishPlan
  rcases readClock cast s with ⟨time, r, m | m⟩
  · rfl
  · simp only [pass]
    rcases occur m r with ⟨q, e | done⟩
    · rfl
    · rfl

/-- A call that waits for the time is told it on the stage and in the course. -/
theorem finishPlan_comes_of_askTime {occur : Occurrence} (hplays : Plays cast opening occur)
    {n : Nat} {call : Session.Call} {use : Session.TimeUse} {rest : List OpenCall}
    (h : Follows cast opening before c s) (ho : c.openCalls = ⟨n, call, .time use⟩ :: rest) :
    ∃ d, Leads cast c d ∧ d.openCalls = rest ∧
      Follows cast opening before d (finishPlan cast occur (.askTime use) s).1 ∧
      d.past.getLast? = some (ending n (finishPlan cast occur (.askTime use) s).2) := by
  have hpassed : Comes cast opening before c
      (pass occur (readClock cast s).2.1 (readClock cast s).2.2).1 := by
    cases (readClock cast s).2.2 with
    | none => exact (readClock_follows h).comes
    | some m => exact hplays before m _ c (readClock_follows h)
  rw [finishPlan_askTime]
  generalize (readClock cast s).1 = time
  generalize pass occur (readClock cast s).2.1 (readClock cast s).2.2 = passed at hpassed ⊢
  obtain ⟨d, hleads, hopen, hfollows⟩ := hpassed
  rw [ho] at hopen
  rcases passed with ⟨q, e | done⟩
  · obtain ⟨d', hleads', hopen', hfollows', hlast⟩ := hfollows.raise hopen e
    exact ⟨d', hleads.trans hleads', hopen', hfollows', hlast⟩
  · have htime : d.move cast.job cast.setup (.time time) =
        ({ d with session := (q.session.told cast.job use time).1, openCalls := rest }.note
          (.toldTime n time)).proceed n call (q.session.told cast.job use time).2 := by
      have hsession : d.session = q.session := hfollows.session
      simp [Course.move, hopen, hsession]
    have htold : Follows cast opening before
        ({ d with session := (q.session.told cast.job use time).1, openCalls := rest }.note
          (.toldTime n time)) { q with session := (q.session.told cast.job use time).1 } :=
      hfollows.append rfl rfl (.refl _) rfl
    obtain ⟨d', hleads', hopen', hfollows', hlast⟩ := finishActs_comes hplays n call _ htold
    refine ⟨d', hleads.trans (.trans (.move (.time time)) ?_), hopen', hfollows', hlast⟩
    rw [htime]
    exact hleads'

/-- A call is made on the stage and in the course, and ends in both in the same way. -/
theorem makeCall_comes {occur : Occurrence} (hplays : Plays cast opening occur)
    (call : Session.Call) (h : Follows cast opening before c s) :
    ∃ d, Leads cast c d ∧ d.openCalls = c.openCalls ∧
      Follows cast opening before d (makeCall cast occur call s).1 ∧
      d.past.getLast? = some (ending c.begun (makeCall cast occur call s).2) := by
  have hsession : (s.session.begin cast.job cast.setup call).state =
      (c.session.begin cast.job cast.setup call).state := by rw [h.session]
  have hresult : (s.session.begin cast.job cast.setup call).result =
      (c.session.begin cast.job cast.setup call).result := by rw [h.session]
  have hbegan : ∀ (session : Session) (openCalls : List OpenCall) (es : List Occasion),
      notices es = [] → session = (c.session.begin cast.job cast.setup call).state →
      Follows cast opening before { session, openCalls, begun := c.begun + 1, past := c.past ++ es }
        ({ s with session := (s.session.begin cast.job cast.setup call).state }.markTraced
          (s.session.begin cast.job cast.setup call).written) :=
    fun session openCalls es hes hs =>
      h.append rfl hes (quiet_markTraced ..) (hs.trans hsession.symm)
  unfold makeCall
  simp only [hresult]
  cases hr : (c.session.begin cast.job cast.setup call).result with
  | error e =>
    have hmove := Course.move_call_of_error rfl hr
    refine ⟨c.move cast.job cast.setup (.call call), .move _, ?_, ?_, ?_⟩
    · rw [hmove]
    · rw [hmove]
      exact hbegan _ _ _ rfl rfl
    · rw [hmove]
      simp [ending]
  | ok plan =>
    cases plan with
    | askTime use =>
      have hmove := Course.move_call_of_askTime rfl hr
      obtain ⟨d, hleads, hopen, hfollows, hlast⟩ := finishPlan_comes_of_askTime hplays
        (hbegan _ (⟨c.begun, call, .time use⟩ :: c.openCalls)
          [.began c.begun call, .askedTime c.begun] rfl rfl) rfl
      refine ⟨d, .trans (.move (.call call)) ?_, hopen, hfollows, hlast⟩
      rw [hmove]
      exact hleads
    | acts todo =>
      obtain ⟨d, hleads, hopen, hfollows, hlast⟩ := finishActs_comes hplays c.begun call todo
        (hbegan _ c.openCalls [.began c.begun call] rfl rfl)
      refine ⟨d, .trans (.move (.call call)) ?_, hopen, hfollows, hlast⟩
      simpa [Course.move, Course.note, hr] using hleads

/-! ## Plays -/

theorem Comes.trans {r : Stage}
    (h : Comes cast opening before c s)
    (h' : ∀ d, d.openCalls = c.openCalls → Follows cast opening before d s →
      Comes cast opening before d r) :
    Comes cast opening before c r := by
  obtain ⟨d, hleads, hopen, hfollows⟩ := h
  obtain ⟨d', hleads', hopen', hfollows'⟩ := h' d hopen hfollows
  exact ⟨d', hleads.trans hleads', hopen'.trans hopen, hfollows'⟩

theorem doStep_comes {occur : Occurrence} (hplays : Plays cast opening occur) (step : Step)
    (h : Follows cast opening before c s) :
    Comes cast opening before c (doStep cast occur step s).1 := by
  cases step with
  | call call =>
    obtain ⟨d, hleads, hopen, hfollows, -⟩ := makeCall_comes hplays call h
    exact ⟨d, hleads, hopen, hfollows⟩
  | ask q => exact h.comes
  | drain => exact Follows.comes (h.on (quiet_drain cast.logger s.post) rfl)
  | dispose => exact Follows.comes (h.on (quiet_dispose s.post) rfl)

theorem doSteps_comes {occur : Occurrence} (hplays : Plays cast opening occur) (steps : List Step)
    (h : Follows cast opening before c s) :
    Comes cast opening before c (doSteps cast occur steps s).1 := by
  induction steps generalizing c s with
  | nil => exact h.comes
  | cons step rest ih =>
    have hmarked : Follows cast opening before c (s.mark (.called step.name)) :=
      h.on (quiet_mark rfl rfl s.post) rfl
    have hdone := doStep_comes hplays step hmarked
    unfold doSteps
    generalize doStep cast occur step (s.mark (.called step.name)) = done at hdone ⊢
    obtain ⟨r, e | answer⟩ := done
    · exact hdone
    · exact hdone.trans fun d _ hd => ih (hd.on (quiet_mark rfl rfl _) rfl)

theorem interrupt_comes {occur : List Interruption → Occurrence}
    (hplays : ∀ others, Plays cast opening (occur others)) (m : Moment)
    (tried waiting : List Interruption)
    (h : Follows cast opening before c s) :
    Comes cast opening before c (interrupt cast occur m tried waiting s).1 := by
  induction waiting generalizing tried c s with
  | nil => exact h.comes
  | cons i after ih =>
    unfold interrupt
    by_cases hset : i.moment = m ∧ i.nth = s.seen.of m
    · rw [if_pos hset]
      have hdone := doSteps_comes (hplays (tried ++ after)) i.steps h
      generalize doSteps cast (occur (tried ++ after)) i.steps s = done at hdone ⊢
      obtain ⟨r, e | done⟩ := done
      · exact hdone
      · cases i.raises with
        | some message => exact hdone
        | none => exact hdone.trans fun d _ hd => ih (tried ++ [i]) hd
    · rw [if_neg hset]
      exact ih (tried ++ [i]) h

/-- However deep the interruptions of a script may set in within one another, there are moves for
what they do. -/
theorem occurWithin_plays (cast : Cast) (depth : Nat) (interruptions : List Interruption) :
    Plays cast opening (occurWithin cast depth interruptions) := by
  induction depth generalizing interruptions with
  | zero => exact fun before m s c h => Follows.comes (h.on (.refl _) rfl)
  | succ depth ih =>
    intro before m s c h
    exact interrupt_comes ih m [] interruptions (h.on (.refl _) rfl)

/-- What has happened on the stage lies behind once it is taken down. -/
theorem Follows.fresh (h : Follows cast opening before c s) :
    Follows cast opening (before ++ s.post.events) c s.fresh where
  session := h.session
  given := by
    intro hclient
    rw [h.given hclient]
    exact congrArg recorded (List.append_nil _).symm
  connection := by
    intro hw
    refine (h.connection hw).trans ?_
    exact congrArg (fun events => opening.after (Event.sends events)) (List.append_nil _).symm
  sent := by
    intro hw
    rw [h.sent hw]
    exact congrArg (fun events => posted (Event.sends events)) (List.append_nil _).symm

/-- Steps that are played one after the other, from a stage with no call open. -/
theorem play_comes (cast : Cast) (interruptions : List Interruption) (steps : List Step)
    (h : Follows cast opening before c s.fresh) :
    ∃ d, Leads cast c d ∧ d.openCalls = c.openCalls ∧
      Follows cast opening
        (before ++ (play cast interruptions steps s).1.flatMap (fun r => r.events)) d
        (play cast interruptions steps s).2.fresh := by
  induction steps generalizing before c s with
  | nil => exact ⟨c, .refl cast c, rfl, by simpa [play] using h⟩
  | cons step rest ih =>
    obtain ⟨d, hleads, hopen, hfollows⟩ :=
      doStep_comes (occurWithin_plays cast interruptions.length interruptions) step h
    obtain ⟨d', hleads', hopen', hfollows'⟩ := ih hfollows.fresh
    refine ⟨d', hleads.trans hleads', hopen'.trans hopen, ?_⟩
    rw [List.append_assoc] at hfollows'
    exact hfollows'

/-- Whatever is played, there is a course for it: it ends with the same session and no call open,
and with the same notifications given to the client, be it a recorder or the other end of a
connection with a script. -/
theorem a_play_takes_a_course (cast : Cast) (interruptions : List Interruption) (steps : List Step)
    {s : Stage} (hs : s.session = {}) :
    let (reports, last) := play cast interruptions steps s
    let events := reports.flatMap (fun r => r.events)
    ∃ moves, let c := Course.run cast.job cast.setup moves
      c.openCalls = [] ∧ c.session = last.session ∧
        (cast.client = .recorder → notices c.past = recorded events) ∧
        (Wired cast s.post.connection →
          last.post.connection = s.post.connection.after (Event.sends events) ∧
            notices c.past = posted (Event.sends events)) := by
  have hfresh : Follows cast s.post.connection [] {} s.fresh :=
    ⟨hs.symm, fun _ => rfl, fun _ => rfl, fun _ => rfl⟩
  obtain ⟨d, ⟨moves, hmoves⟩, hopen, h⟩ := play_comes cast interruptions steps hfresh
  rw [List.nil_append] at h
  refine ⟨moves, ?_⟩
  rw [Course.run, hmoves]
  refine ⟨hopen, h.session, fun hclient => ?_, fun hw => ⟨?_, ?_⟩⟩
  · simpa [Stage.fresh, Post.fresh] using h.given hclient
  · simpa [Stage.fresh, Post.fresh] using h.connection hw
  · simpa [Stage.fresh, Post.fresh] using h.sent hw

/-! ## What is seen of a play -/

/-- The publication that a notification is, if it is one. -/
def publish? : Notice Diagnostic → Option (Publish Diagnostic)
  | .publish p => some p
  | _ => none

theorem publications_eq (past : List Occasion) :
    Session.publications past = (notices past).filterMap publish? := by
  unfold Session.publications notices
  rw [List.filterMap_filterMap]
  refine List.filterMap_congr fun o _ => ?_
  rcases o with _ | _ | _ | ⟨n, _ | notice⟩ | _ | _ | _
  all_goals first | rfl | (cases notice <;> rfl)

theorem publications_posted (os : List (Outgoing Diagnostic)) :
    Outgoing.publications os = (posted os).filterMap publish? := by
  unfold Outgoing.publications posted
  rw [List.filterMap_filterMap]
  refine List.filterMap_congr fun o _ => ?_
  rcases o with notice | _
  · cases notice <;> rfl
  · rfl

theorem reached_run (job : Job) {setup : Trace.Setup} (ht : setup.Timely) (moves : List Move) :
    Course.Reached job Trace.Setup.Timely (Course.run job setup moves) := by
  rw [Course.run_eq_after]
  refine Course.reached_after job fun t ht' => ?_
  obtain ⟨m, -, rfl⟩ := List.mem_map.mp ht'
  exact ht

/-- When a play is over, the session shows of each URI what the recorder was given for it last. -/
theorem a_play_shows_what_was_recorded_last {cast : Cast} (ht : cast.setup.Timely)
    (hclient : cast.client = .recorder) (interruptions : List Interruption) (steps : List Step)
    {s : Stage} (hs : s.session = {}) (u : String) :
    let (reports, last) := play cast interruptions steps s
    last.session.answer cast.job (.diagnostics u) =
      .diagnostics (Session.lastFor u
        ((recorded (reports.flatMap (fun r => r.events))).filterMap publish?)) := by
  obtain ⟨moves, -, hsession, hgiven, -⟩ := a_play_takes_a_course cast interruptions steps hs
  have hboard := (reached_run cast.job ht moves).board.1 u
  rw [publications_eq, hgiven hclient] at hboard
  show Session.Answer.diagnostics ((play cast interruptions steps s).2.session.board.get u) = _
  rw [← hsession, hboard]

/-- When a play over a connection is over, the other end shows of each URI the beginning of what the
session shows, and all of it if the last publication for it was accepted. -/
theorem a_play_repairs_what_was_lost {cast : Cast} {s : Stage} (hw : Wired cast s.post.connection)
    (interruptions : List Interruption) (steps : List Step) (hs : s.session = {}) (u : String) :
    let (reports, last) := play cast interruptions steps s
    let deliveries :=
      s.post.connection.delivers (Event.sends (reports.flatMap (fun r => r.events)))
    ∃ ds, last.session.answer cast.job (.diagnostics u) = .diagnostics ds ∧
      (Board.shownAfter deliveries).get u <+: ds ∧
      (lastArrival? u deliveries = some true → (Board.shownAfter deliveries).get u = ds) := by
  obtain ⟨moves, -, hsession, -, hsent⟩ := a_play_takes_a_course cast interruptions steps hs
  obtain ⟨-, hposted⟩ := hsent hw
  have hp := publications_eq (Course.run cast.job cast.setup moves).past
  rw [hposted, ← publications_posted] at hp
  refine ⟨_, rfl, ?_⟩
  rw [← hsession]
  exact (reached_run cast.job hw.timely moves).shows s.post.connection hp.symm u

end BuildFeed.Rehearsal
