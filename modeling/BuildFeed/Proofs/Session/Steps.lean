-- The steps of a course. A call that begins is refused, asks for the time, is turned away or
-- publishes; one that waits is told the time, goes on to its notification, returns or fails.
import BuildFeed.Session.Course
import BuildFeed.Proofs.Session.Beginnings

namespace BuildFeed.Session

/-! ## What a call is told and tells -/

/-- What a notification announces of the job, and for what time; a publication announces
nothing. -/
def announced? : Notice Diagnostic → Option (TimeUse × Number)
  | .publish _ => none
  | .taskStart p => some (.start, p.eventTime)
  | .taskFinish p => some (.finish, p.eventTime)

/-- The line for the log with which a start or a finish goes through. -/
def lineFor (job : Job) (s : Session) : TimeUse → String
  | .start => startLine job
  | .finish => finishLine job s.tally

/-- The notification with which a start or a finish goes through. -/
def noticeFor (job : Job) (s : Session) (t : Number) : TimeUse → Notice Diagnostic
  | .start => .taskStart (startNotice job t)
  | .finish => .taskFinish (finishNotice job s t)

theorem told_acts (job : Job) (s : Session) (use : TimeUse) (t : Number) :
    (s.told job use t).2 =
      [.hand (.log .info (s.lineFor job use)), .hand (.notify (s.noticeFor job t use))] := by
  cases use <;> rfl

theorem announced?_noticeFor (job : Job) (s : Session) (t : Number) (use : TimeUse) :
    announced? (s.noticeFor job t use) = some (use, t) := by
  cases use <;> rfl

@[simp] theorem board_told (job : Job) (s : Session) (use : TimeUse) (t : Number) :
    (s.told job use t).1.board = s.board := by
  cases use <;> rfl

@[simp] theorem tally_told (job : Job) (s : Session) (use : TimeUse) (t : Number) :
    (s.told job use t).1.tally = s.tally := by
  cases use <;> rfl

@[simp] theorem latch_told (job : Job) (s : Session) (use k : TimeUse) (t : Number) :
    (s.told job use t).1.latch k = s.latch k := by
  cases use <;> rfl

/-- The session once a call has been counted that counts. -/
def countedFor (call : Call) (s : Session) : Session :=
  match call.counted? with
  | some severity => s.counted severity
  | none => s

@[simp] theorem board_countedFor (call : Call) (s : Session) :
    (s.countedFor call).board = s.board := by
  unfold countedFor
  split <;> rfl

@[simp] theorem latch_countedFor (call : Call) (s : Session) (k : TimeUse) :
    (s.countedFor call).latch k = s.latch k := by
  unfold countedFor
  split <;> cases k <;> rfl

theorem countedFor_of_use {call : Call} {use : TimeUse} (hu : call.use? = some use) (s : Session) :
    s.countedFor call = s := by
  cases call <;> first | rfl | cases hu

theorem countings_of_use {call : Call} {use : TimeUse} (hu : call.use? = some use) :
    call.countings = [] := by
  cases call <;> first | rfl | cases hu

namespace Course

/-! ## The moves -/

variable {job : Job} {setup : Trace.Setup} {c : Course} {n : Nat} {call : Call}
  {rest : List OpenCall}

theorem move_call_of_error {e : Fault} {s : Session}
    (hs : (c.session.begin job setup call).state = s)
    (hr : (c.session.begin job setup call).result = .error e) :
    c.move job setup (.call call) =
      { session := s
        openCalls := c.openCalls
        begun := c.begun + 1
        past := c.past ++ [.began c.begun call, .failed c.begun e] } := by
  simp [move, note, hs, hr]

theorem move_call_of_askTime {use : TimeUse} {s : Session}
    (hs : (c.session.begin job setup call).state = s)
    (hr : (c.session.begin job setup call).result = .ok (.askTime use)) :
    c.move job setup (.call call) =
      { session := s
        openCalls := ⟨c.begun, call, .time use⟩ :: c.openCalls
        begun := c.begun + 1
        past := c.past ++ [.began c.begun call, .askedTime c.begun] } := by
  simp [move, note, suspend, hs, hr]

theorem move_call_of_hand {h : Handover} {todo : List Act} {s : Session}
    (hs : (c.session.begin job setup call).state = s)
    (hr : (c.session.begin job setup call).result = .ok (.acts (.hand h :: todo))) :
    c.move job setup (.call call) =
      { session := s
        openCalls := ⟨c.begun, call, .back h todo⟩ :: c.openCalls
        begun := c.begun + 1
        past := c.past ++ [.began c.begun call, .handed c.begun h] } := by
  simp [move, note, suspend, proceed, hs, hr]

theorem move_time {use : TimeUse} (ho : c.openCalls = ⟨n, call, .time use⟩ :: rest) (t : Number) :
    c.move job setup (.time t) =
      { session := (c.session.told job use t).1
        openCalls := ⟨n, call, .back (.log .info (c.session.lineFor job use))
          [.hand (.notify (c.session.noticeFor job t use))]⟩ :: rest
        begun := c.begun
        past := c.past ++
          [.toldTime n t, .handed n (.log .info (c.session.lineFor job use))] } := by
  simp [move, ho, told_acts, proceed, note, suspend]

theorem move_back_of_hand {h next : Handover} {todo : List Act}
    (ho : c.openCalls = ⟨n, call, .back h (.hand next :: todo)⟩ :: rest) :
    c.move job setup .back =
      { session := c.session
        openCalls := ⟨n, call, .back next todo⟩ :: rest
        begun := c.begun
        past := c.past ++ [.cameBack n, .handed n next] } := by
  simp [move, ho, proceed, note, suspend]

/-- After its last hand-over a call counts what it counts and returns. -/
theorem move_back_of_countings {h : Handover}
    (ho : c.openCalls = ⟨n, call, .back h call.countings⟩ :: rest) :
    c.move job setup .back =
      { session := c.session.countedFor call
        openCalls := rest
        begun := c.begun
        past := c.past ++ [.cameBack n, .returned n] } := by
  unfold Call.countings at ho
  unfold countedFor
  cases hcounted : call.counted? with
  | none => simp_all [move, proceed, note]
  | some severity => simp_all [move, proceed, note]

theorem move_raise {o : OpenCall} (ho : c.openCalls = o :: rest) (e : Fault) :
    c.move job setup (.raise e) =
      { session := c.session
        openCalls := rest
        begun := c.begun
        past := c.past ++ [.failed o.number e] } := by
  simp [move, ho, note]

theorem move_time_of_back {h : Handover} {todo : List Act}
    (ho : c.openCalls = ⟨n, call, .back h todo⟩ :: rest) (t : Number) :
    c.move job setup (.time t) = c := by
  simp [move, ho]

theorem move_back_of_time {use : TimeUse} (ho : c.openCalls = ⟨n, call, .time use⟩ :: rest) :
    c.move job setup .back = c := by
  simp [move, ho]

/-- Where no call is open, nobody can be told anything, come back or raise an error. -/
theorem move_of_idle (ho : c.openCalls = []) {m : Move} (hm : ∀ call, m ≠ .call call) :
    c.move job setup m = c := by
  cases m with
  | call call => exact absurd rfl (hm call)
  | _ => simp [move, ho]

/-! ## The steps -/

/-- What can happen next in a course. A call that begins is refused for its path or its trace line,
asks for the time, is turned away, or publishes. The innermost open call is told the time, goes on
to its notification, returns, or fails. -/
inductive Step (job : Job) (setup : Trace.Setup) (c : Course) : Course → Prop
  | refused {call : Call} {e : Fault} {board : Board Diagnostic} (hu : call.use? = none)
      (hb : setup.Timely → board = c.session.board ∧ call.document? job = some (.error e)) :
      Step job setup c
        { session := { c.session with board }
          openCalls := c.openCalls
          begun := c.begun + 1
          past := c.past ++ [.began c.begun call, .failed c.begun e] }
  | asked {call : Call} {use : TimeUse} (hu : call.use? = some use)
      (hup : (c.session.latch use).fallen = false) :
      Step job setup c
        { session := c.session.letFall use
          openCalls := ⟨c.begun, call, .time use⟩ :: c.openCalls
          begun := c.begun + 1
          past := c.past ++ [.began c.begun call, .askedTime c.begun] }
  | ignored {call : Call} {use : TimeUse} (hu : call.use? = some use)
      (hfallen : (c.session.latch use).fallen = true) :
      Step job setup c
        { session := c.session
          openCalls := ⟨c.begun, call, .back (.log .log (refusal job use)) call.countings⟩ ::
            c.openCalls
          begun := c.begun + 1
          past := c.past ++ [.began c.begun call, .handed c.begun (.log .log (refusal job use))] }
  | published {call : Call} {doc : Document} {p : Publish Diagnostic}
      (hd : call.document? job = some (.ok doc))
      (hp : p = publication job doc (c.session.board.get doc.uri ++ call.diagnostics)) :
      Step job setup c
        { session :=
            { c.session with board := c.session.board.grown doc.uri call.diagnostics }
          openCalls := ⟨c.begun, call, .back (.notify (.publish p)) call.countings⟩ :: c.openCalls
          begun := c.begun + 1
          past := c.past ++ [.began c.begun call, .handed c.begun (.notify (.publish p))] }
  | told {n : Nat} {call : Call} {use : TimeUse} {rest : List OpenCall} {t : Number}
      (ho : c.openCalls = ⟨n, call, .time use⟩ :: rest) :
      Step job setup c
        { session := (c.session.told job use t).1
          openCalls := ⟨n, call, .back (.log .info (c.session.lineFor job use))
            [.hand (.notify (c.session.noticeFor job t use))]⟩ :: rest
          begun := c.begun
          past := c.past ++ [.toldTime n t, .handed n (.log .info (c.session.lineFor job use))] }
  | announced {n : Nat} {call : Call} {line : String} {notice : Notice Diagnostic}
      {rest : List OpenCall}
      (ho : c.openCalls = ⟨n, call, .back (.log .info line) [.hand (.notify notice)]⟩ :: rest) :
      Step job setup c
        { session := c.session
          openCalls := ⟨n, call, .back (.notify notice) call.countings⟩ :: rest
          begun := c.begun
          past := c.past ++ [.cameBack n, .handed n (.notify notice)] }
  | returned {n : Nat} {call : Call} {h : Handover} {rest : List OpenCall}
      (ho : c.openCalls = ⟨n, call, .back h call.countings⟩ :: rest) :
      Step job setup c
        { session := c.session.countedFor call
          openCalls := rest
          begun := c.begun
          past := c.past ++ [.cameBack n, .returned n] }
  | failed {o : OpenCall} {rest : List OpenCall} {e : Fault} (ho : c.openCalls = o :: rest) :
      Step job setup c
        { session := c.session
          openCalls := rest
          begun := c.begun
          past := c.past ++ [.failed o.number e] }

end Course

end BuildFeed.Session
