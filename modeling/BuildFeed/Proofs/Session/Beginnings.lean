-- How a call on a session begins. A start or a finish asks for the time if its latch is still up,
-- and is turned away otherwise. Every other call makes the board grow and publishes what stands
-- there then, unless its path is bad or a trace line fails.
import BuildFeed.Session.Calls
import BuildFeed.Proofs.Board.Growth

namespace BuildFeed

namespace Attempt

variable {σ τ α β : Type}

theorem within_note (setup : Trace.Setup) (channel : Trace.Channel) (point : String)
    (data : Trace.Data) (state : σ) (value : α) (embed : σ → τ) :
    (note setup channel point data state value).within embed =
      note setup channel point data (embed state) value := by
  unfold note within
  split
  · rfl
  · rfl

/-- An attempt at a part goes on in the whole as it does in the part. -/
theorem within_andThen (a : Attempt σ α) (embed : σ → τ) {next : σ → α → Attempt σ β}
    {after : τ → α → Attempt τ β} (h : ∀ s x, after (embed s) x = (next s x).within embed) :
    (a.andThen next).within embed = (a.within embed).andThen after := by
  unfold andThen
  cases hr : a.result with
  | error e => simp [within, hr]
  | ok x => simp [within, hr, h]

end Attempt

namespace Session

/-! ## What a call is about -/

/-- What a start or a finish wants the time for. -/
def Call.use? : Call → Option TimeUse
  | .start => some .start
  | .finish => some .finish
  | .summary => some .finish
  | .problem _ _ => none
  | .ownProblem _ => none
  | .visit _ => none

/-- The severity that a call counts once it returns. -/
def Call.counted? : Call → Option Severity
  | .problem counted _ => some counted
  | .ownProblem p => some p.severity
  | _ => none

/-- The document that a call publishes, if its path is good. -/
def Call.document? (job : Job) : Call → Option (Except Fault Document)
  | .problem _ p => some (Document.ofPosition p.position job.target)
  | .ownProblem p => some (Document.ofPosition p.position job.target)
  | .visit path => some (Document.ofPath path)
  | _ => none

/-- What a call adds to its document. -/
def Call.diagnostics : Call → List Diagnostic
  | .problem _ p => [Diagnostic.ofProblem p]
  | .ownProblem p => [Diagnostic.ofProblem p]
  | _ => []

/-- What a call still has to do when it has published. -/
def Call.countings (call : Call) : List Act := call.counted?.toList.map .count

theorem use?_of_document? {job : Job} {call : Call} {d : Except Fault Document}
    (hd : call.document? job = some d) : call.use? = none := by
  cases call <;> first | rfl | cases hd

/-! ## Latches -/

/-- The latch that keeps a second start, or a second finish, from going through. -/
def latch (s : Session) : TimeUse → Latch
  | .start => s.started
  | .finish => s.finished

/-- The session with one of its latches fallen. -/
def letFall (s : Session) : TimeUse → Session
  | .start => { s with started := ⟨true⟩ }
  | .finish => { s with finished := ⟨true⟩ }

theorem latch_letFall (s : Session) (use k : TimeUse) :
    (s.letFall use).latch k = if k = use then ⟨true⟩ else s.latch k := by
  cases use <;> cases k <;> rfl

@[simp] theorem board_letFall (s : Session) (use : TimeUse) : (s.letFall use).board = s.board := by
  cases use <;> rfl

@[simp] theorem tally_letFall (s : Session) (use : TimeUse) : (s.letFall use).tally = s.tally := by
  cases use <;> rfl

/-- The message that a start or a finish was not the first. -/
def refusal (job : Job) : TimeUse → String
  | .start => "[task] " ++ job.task.id ++ " start ignored: already started"
  | .finish => "[task] " ++ job.task.id ++ " finish ignored: already finished"

theorem ignored_start (job : Job) :
    ignored job "start" "started" = [.hand (.log .log (refusal job .start))] := by
  simp [ignored, refusal, String.append_assoc]

theorem ignored_finish (job : Job) :
    ignored job "finish" "finished" = [.hand (.log .log (refusal job .finish))] := by
  simp [ignored, refusal, String.append_assoc]

/-! ## The ways to begin -/

/-- The ways in which a call can begin: the state that its first stretch leaves, and how it goes on
from there. -/
inductive Begins (job : Job) (setup : Trace.Setup) (s : Session) :
    Call → Session → Except Fault Plan → Prop
  | asks {call : Call} {use : TimeUse} (hu : call.use? = some use)
      (hup : (s.latch use).fallen = false) :
      Begins job setup s call (s.letFall use) (.ok (.askTime use))
  | ignored {call : Call} {use : TimeUse} (hu : call.use? = some use)
      (hfallen : (s.latch use).fallen = true) :
      Begins job setup s call s (.ok (.acts [.hand (.log .log (refusal job use))]))
  | publishes {call : Call} {doc : Document} (hd : call.document? job = some (.ok doc)) :
      Begins job setup s call { s with board := s.board.grown doc.uri call.diagnostics }
        (.ok (.acts (.hand (.notify (.publish
          (publication job doc (s.board.get doc.uri ++ call.diagnostics)))) :: call.countings)))
  | fails {call : Call} {e : Fault} {board : Board Diagnostic} (hu : call.use? = none)
      (hb : setup.Timely → board = s.board ∧ call.document? job = some (.error e)) :
      Begins job setup s call { s with board } (.error e)

theorem beginStart_begins (job : Job) (setup : Trace.Setup) (s : Session) :
    Begins job setup s .start (s.beginStart job).1 (.ok (s.beginStart job).2) := by
  cases h : s.started.fallen with
  | true =>
    simp only [beginStart, Latch.fall, h, Bool.not_true, ignored_start]
    exact .ignored rfl h
  | false =>
    simp only [beginStart, Latch.fall, h, Bool.not_false]
    show Begins job setup s .start (s.letFall .start) (.ok (.askTime .start))
    exact .asks rfl h

theorem beginFinish_begins (job : Job) (setup : Trace.Setup) (s : Session) {call : Call}
    (hu : call.use? = some .finish) :
    Begins job setup s call (s.beginFinish job).1 (.ok (s.beginFinish job).2) := by
  cases h : s.finished.fallen with
  | true =>
    simp only [beginFinish, Latch.fall, h, Bool.not_true, ignored_finish]
    exact .ignored hu h
  | false =>
    simp only [beginFinish, Latch.fall, h, Bool.not_false]
    show Begins job setup s call (s.letFall .finish) (.ok (.askTime .finish))
    exact .asks hu h

/-- A problem begins as a growth of the board by its diagnostic. -/
theorem takeProblem_begins (job : Job) (setup : Trace.Setup) (s : Session) (p : Problem)
    (counted : Severity) {call : Call} (hu : call.use? = none)
    (hd : call.document? job = some (Document.ofPosition p.position job.target))
    (hds : call.diagnostics = [Diagnostic.ofProblem p]) (hc : call.countings = [.count counted]) :
    Begins job setup s call (s.takeProblem job setup p counted).state
      (s.takeProblem job setup p counted).result := by
  unfold takeProblem
  cases hdoc : Document.ofPosition p.position job.target with
  | error e =>
    rw [hdoc] at hd
    exact .fails hu (fun _ => ⟨rfl, hd⟩)
  | ok doc =>
    rw [hdoc] at hd
    simp only
    cases hadd : (s.board.add setup doc (Diagnostic.ofProblem p)).result with
    | error e =>
      simp only [Attempt.andThen, Attempt.within, hadd]
      exact .fails hu (fun hs => by rw [Board.add_of_timely hs] at hadd; cases hadd)
    | ok ds =>
      obtain ⟨hstate, rfl⟩ := Board.add_of_ok hadd
      simp only [Attempt.andThen, Attempt.within, hadd, hstate, Attempt.note_state]
      cases hnote :
        (Attempt.note setup .reporter "problem" _ _ _ : Attempt Session Plan).result with
      | error e =>
        exact .fails hu (fun hs => by
          rw [Attempt.note_of_isPlain hs _ _ (by simp [Trace.Value.isPlain])] at hnote
          cases hnote)
      | ok plan =>
        rw [Attempt.eq_of_note_ok hnote, ← hds, ← hc]
        exact .publishes hd

theorem takeVisit_begins (job : Job) (setup : Trace.Setup) (s : Session) (path : String) :
    Begins job setup s (.visit path) (s.takeVisit job setup path).state
      (s.takeVisit job setup path).result := by
  unfold takeVisit
  cases hdoc : Document.ofPath path with
  | error e => exact .fails rfl (fun _ => ⟨rfl, by simp [Call.document?, hdoc]⟩)
  | ok doc =>
    simp only
    cases hmention : (s.board.mention setup doc).result with
    | error e =>
      simp only [Attempt.andThen, Attempt.within, hmention]
      exact .fails rfl (fun hs => by rw [Board.mention_of_timely hs] at hmention; cases hmention)
    | ok ds =>
      have hds := Board.eq_of_mention_ok hmention
      simp only [Attempt.andThen, Attempt.within, hmention, Board.mention_state, hds]
      have hd : (Call.visit path).document? job = some (.ok doc) := by simp [Call.document?, hdoc]
      have hbegin : Begins job setup s (.visit path) _ _ := .publishes hd
      simpa [Call.diagnostics, Call.countings, Call.counted?] using hbegin

/-- However a call begins, it is in one of these ways. -/
theorem begin_begins (job : Job) (setup : Trace.Setup) (s : Session) (call : Call) :
    Begins job setup s call (s.begin job setup call).state (s.begin job setup call).result := by
  cases call with
  | start => exact beginStart_begins job setup s
  | finish => exact beginFinish_begins job setup s rfl
  | summary => exact beginFinish_begins job setup s rfl
  | problem counted p => exact takeProblem_begins job setup s p counted rfl rfl rfl rfl
  | ownProblem p => exact takeProblem_begins job setup s p p.severity rfl rfl rfl rfl
  | visit path => exact takeVisit_begins job setup s path

/-- Where trace lines can be written, a call begins in one way only, whatever they show. -/
theorem Begins.unique {job : Job} {setup setup' : Trace.Setup} (ht : setup.Timely)
    (ht' : setup'.Timely) {s : Session} {call : Call} {t t' : Session}
    {r r' : Except Fault Plan} (h : Begins job setup s call t r)
    (h' : Begins job setup' s call t' r') : t = t' ∧ r = r' := by
  cases h with
  | asks hu hup =>
    cases h' with
    | asks hu' hup' =>
      cases hu.symm.trans hu'
      exact ⟨rfl, rfl⟩
    | ignored hu' hfallen =>
      cases hu.symm.trans hu'
      cases hup.symm.trans hfallen
    | publishes hd => cases hu.symm.trans (use?_of_document? hd)
    | fails hu' hb => cases hu.symm.trans hu'
  | ignored hu hfallen =>
    cases h' with
    | asks hu' hup =>
      cases hu.symm.trans hu'
      cases hup.symm.trans hfallen
    | ignored hu' hfallen' =>
      cases hu.symm.trans hu'
      exact ⟨rfl, rfl⟩
    | publishes hd => cases hu.symm.trans (use?_of_document? hd)
    | fails hu' hb => cases hu.symm.trans hu'
  | publishes hd =>
    cases h' with
    | asks hu hup => cases hu.symm.trans (use?_of_document? hd)
    | ignored hu hfallen => cases hu.symm.trans (use?_of_document? hd)
    | publishes hd' =>
      cases hd.symm.trans hd'
      exact ⟨rfl, rfl⟩
    | fails hu hb => cases hd.symm.trans (hb ht').2
  | fails hu hb =>
    obtain ⟨rfl, hbad⟩ := hb ht
    cases h' with
    | asks hu' hup => cases hu.symm.trans hu'
    | ignored hu' hfallen => cases hu.symm.trans hu'
    | publishes hd => cases hbad.symm.trans hd
    | fails hu' hb' =>
      obtain ⟨rfl, hbad'⟩ := hb' ht'
      cases hbad.symm.trans hbad'
      exact ⟨rfl, rfl⟩

theorem begin_of_timely {setup setup' : Trace.Setup} (ht : setup.Timely) (ht' : setup'.Timely)
    (job : Job) (s : Session) (call : Call) :
    (s.begin job setup call).state = (s.begin job setup' call).state ∧
      (s.begin job setup call).result = (s.begin job setup' call).result :=
  (begin_begins job setup s call).unique ht ht' (begin_begins job setup' s call)

/-! ## What a call does not look at -/

/-- The session with other counts, and started at another time. -/
def recounted (tally : Tally) (startedAt : Option Number) (s : Session) : Session :=
  { s with tally, startedAt }

theorem takeProblem_recounted (job : Job) (setup : Trace.Setup) (p : Problem) (counted : Severity)
    (tally : Tally) (startedAt : Option Number) (s : Session) :
    (s.recounted tally startedAt).takeProblem job setup p counted =
      (s.takeProblem job setup p counted).within (recounted tally startedAt) := by
  unfold takeProblem
  cases Document.ofPosition p.position job.target with
  | error e => rfl
  | ok doc =>
    simp only
    refine Eq.symm (Attempt.within_andThen _ _ fun s ds => ?_)
    exact (Attempt.within_note ..).symm

theorem takeVisit_recounted (job : Job) (setup : Trace.Setup) (path : String) (tally : Tally)
    (startedAt : Option Number) (s : Session) :
    (s.recounted tally startedAt).takeVisit job setup path =
      (s.takeVisit job setup path).within (recounted tally startedAt) := by
  unfold takeVisit
  cases Document.ofPath path with
  | error e => rfl
  | ok doc =>
    refine Eq.symm (Attempt.within_andThen _ _ fun s ds => ?_)
    rfl

/-- However a session has counted, a call begins on it in the same way. -/
theorem begin_recounted (job : Job) (setup : Trace.Setup) (call : Call) (tally : Tally)
    (startedAt : Option Number) (s : Session) :
    (s.recounted tally startedAt).begin job setup call =
      (s.begin job setup call).within (recounted tally startedAt) := by
  cases call with
  | start =>
    simp only [begin, beginStart, recounted]
    cases s.started.fall with
    | mk up latch => cases up <;> rfl
  | finish =>
    simp only [begin, beginFinish, recounted]
    cases s.finished.fall with
    | mk up latch => cases up <;> rfl
  | summary =>
    simp only [begin, beginFinish, recounted]
    cases s.finished.fall with
    | mk up latch => cases up <;> rfl
  | problem counted p => exact takeProblem_recounted ..
  | ownProblem p => exact takeProblem_recounted ..
  | visit path => exact takeVisit_recounted ..

end Session

end BuildFeed
