-- Playing a rehearsal. `occur` is what happens when a moment comes: it is counted, and every
-- interruption that waits for just this count runs its steps. An interruption never sets in
-- during its own steps, since its moment is past by then, so the steps run with the others
-- only, and that is why the play ends.
import BuildFeed.Rehearsal.Basic

namespace BuildFeed.Rehearsal

/-! ## Calls -/

/-- What happens at a moment. -/
abbrev Occurrence := Moment → Stage → Result Unit

/-- Hand something over and let the moment pass. -/
def handOver (cast : Cast) (occur : Occurrence) (h : Session.Handover) (s : Stage) :
    Result Unit :=
  match give cast h s with
  | (s, .error e) => (s, .error e)
  | (s, .ok none) => (s, .ok ())
  | (s, .ok (some m)) => occur m s

/-- Do what a call still has to do. An error ends it on the spot. -/
def finishActs (cast : Cast) (occur : Occurrence) : List Session.Act → Stage → Result Unit
  | [], s => (s, .ok ())
  | .count severity :: rest, s =>
    finishActs cast occur rest { s with session := s.session.counted severity }
  | .hand h :: rest, s =>
    match handOver cast occur h s with
    | (s, .error e) => (s, .error e)
    | (s, .ok ()) => finishActs cast occur rest s

/-- Carry out the plan of a call. -/
def finishPlan (cast : Cast) (occur : Occurrence) (plan : Session.Plan) (s : Stage) :
    Result Unit :=
  match plan with
  | .acts todo => finishActs cast occur todo s
  | .askTime use =>
    let (time, s, moment) := readClock cast s
    let (s, passed) := match moment with
      | some m => occur m s
      | none => (s, .ok ())
    match passed with
    | .error e => (s, .error e)
    | .ok () =>
      let (session, todo) := s.session.told cast.job use time
      finishActs cast occur todo { s with session }

/-- Make a call. -/
def makeCall (cast : Cast) (occur : Occurrence) (c : Session.Call) (s : Stage) : Result Unit :=
  let first := s.session.begin cast.job cast.setup c
  let s := { s with session := first.state }.markTraced first.written
  match first.result with
  | .error e => (s, .error e)
  | .ok plan => finishPlan cast occur plan s

/-! ## Steps -/

/-- Do one step. -/
def doStep (cast : Cast) (occur : Occurrence) (step : Step) (s : Stage) :
    Result Session.Answer :=
  match step with
  | .call c =>
    let (s, result) := makeCall cast occur c s
    (s, result.map (fun _ => .nothing))
  | .ask q => (s, .ok (s.session.answer cast.job q))
  | .drain => ({ s with post := s.post.drain cast.logger }, .ok .nothing)
  | .dispose =>
    ({ s with post := { s.post with connection := s.post.connection.dispose } }, .ok .nothing)

/-- The name of a step. -/
def Step.name : Step → String
  | .call .start => "start"
  | .call .finish => "finish"
  | .call .summary => "printSummary"
  | .call (.problem .error _) => "logError"
  | .call (.problem .warning _) => "logWarning"
  | .call (.problem .info _) => "logInfo"
  | .call (.ownProblem _) => "logProblem"
  | .call (.visit _) => "fileVisited"
  | .ask (.diagnostics _) => "diagnostics"
  | .ask .documents => "documents"
  | .ask .tally => "counts"
  | .ask .task => "compileTask"
  | .drain => "flush"
  | .dispose => "dispose"

/-- Do the steps of an interruption, with a mark before each and one after it. An error ends
them all. -/
def doSteps (cast : Cast) (occur : Occurrence) : List Step → Stage → Result Unit
  | [], s => (s, .ok ())
  | step :: rest, s =>
    match doStep cast occur step (s.mark (.called step.name)) with
    | (s, .error e) => (s, .error e)
    | (s, .ok answer) => doSteps cast occur rest (s.mark (.returned step.name answer))

/-! ## Interruptions -/

/-- Let the interruptions set in that wait for a moment at its present count, in turn. Those
before and those after the one that sets in are the others. -/
def interrupt (cast : Cast) (occur : List Interruption → Occurrence) (m : Moment) :
    List Interruption → List Interruption → Stage → Result Unit
  | _, [], s => (s, .ok ())
  | before, i :: after, s =>
    if i.moment = m ∧ i.nth = s.seen.of m then
      match doSteps cast (occur (before ++ after)) i.steps s with
      | (s, .error e) => (s, .error e)
      | (s, .ok ()) =>
        match i.raises with
        | some message => (s, .error (.raised message))
        | none => interrupt cast occur m (before ++ [i]) after s
    else interrupt cast occur m (before ++ [i]) after s

/-- What happens when a moment comes while at most `depth` interruptions can set in within one
another. -/
def occurWithin (cast : Cast) : Nat → List Interruption → Occurrence
  | 0, _, m, s => ({ s with seen := s.seen.add m }, .ok ())
  | depth + 1, interruptions, m, s =>
    interrupt cast (occurWithin cast depth) m [] interruptions { s with seen := s.seen.add m }

/-- What happens when a moment comes. No more interruptions can be within one another than
there are. -/
def occur (cast : Cast) (interruptions : List Interruption) : Occurrence :=
  occurWithin cast interruptions.length interruptions

/-! ## Whole rehearsals -/

/-- The cast and the stage for a job with the collaborators that were chosen for it. -/
def opening (options : Options) (setup : Trace.Setup) (client : Client)
    (connection : Connection) : Except Fault (Cast × Stage) :=
  options.settle.map fun settings =>
    ({ job := settings.job, setup, logger := settings.logger, client },
      { post := { connection }, clock := settings.clock })

/-- What is seen of one step: its events, its answer or error, and where the session stands. -/
structure Report where
  events : List (Event Diagnostic)
  result : Except Fault Session.Answer
  tally : Tally
  documents : List (String × Nat)
  deriving Inhabited

/-- The stage with nothing noted yet. -/
def Stage.fresh (s : Stage) : Stage := { s with post := s.post.fresh }

/-- What is seen of a step that has been done. -/
def report (done : Result Session.Answer) : Report :=
  { events := done.1.post.events
    result := done.2
    tally := done.1.session.tally
    documents := done.1.session.board.sizes }

/-- Play steps in turn. An error ends its own step and no other. -/
def play (cast : Cast) (interruptions : List Interruption) :
    List Step → Stage → List Report × Stage
  | [], s => ([], s)
  | step :: rest, s =>
    let done := doStep cast (occur cast interruptions) step s.fresh
    let (reports, last) := play cast interruptions rest done.1
    (report done :: reports, last)

/-- Play steps in turn and deal with all failed sends after each one, as part of it. -/
def playDrained (cast : Cast) : List Step → Stage → List Report × Stage
  | [], s => ([], s)
  | step :: rest, s =>
    let (after, result) := doStep cast (occur cast []) step s.fresh
    let done := ({ after with post := after.post.drain cast.logger }, result)
    let (reports, last) := playDrained cast rest done.1
    (report done :: reports, last)

/-- A whole rehearsal: its steps, and what still happens when the failed sends are dealt with at
the end. -/
def whole (cast : Cast) (interruptions : List Interruption) (steps : List Step) (s : Stage) :
    List Report × List (Event Diagnostic) :=
  let (reports, last) := play cast interruptions steps s
  (reports, last.post.remaining cast.logger)

end BuildFeed.Rehearsal
