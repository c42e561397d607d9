-- What the calls on a session do. A start or a finish goes through only once: the latch falls
-- before the clock is read, and the clock is read before the logger and the client hear of it.
-- A problem goes onto the board before it is published and is counted after that.
import BuildFeed.Session.Basic

namespace BuildFeed.Session

/-! ## Start and finish -/

/-- The message that a start or a finish was not the first. -/
def ignored (job : Job) (what state : String) : List Act :=
  [.hand (.log .log ("[task] " ++ job.task.id ++ " " ++ what ++ " ignored: already " ++ state))]

/-- Begin a start. -/
def beginStart (job : Job) (s : Session) : Session × Plan :=
  match s.started.fall with
  | (false, _) => (s, .acts (ignored job "start" "started"))
  | (true, started) => ({ s with started }, .askTime .start)

/-- Begin a finish. -/
def beginFinish (job : Job) (s : Session) : Session × Plan :=
  match s.finished.fall with
  | (false, _) => (s, .acts (ignored job "finish" "finished"))
  | (true, finished) => ({ s with finished }, .askTime .finish)

/-- The notification that the job starts at a time. -/
def startNotice (job : Job) (time : Number) : TaskStart :=
  { task := job.task
    eventTime := time
    message := "Compiling target " ++ job.name
    target := job.target }

/-- The notification that the job is finished at a time, from what the session knows then. -/
def finishNotice (job : Job) (s : Session) (time : Number) : TaskFinish :=
  { task := job.task
    eventTime := time
    status := Status.ofErrors s.tally.errors
    message := "Compiled " ++ job.name
    report :=
      { target := job.target
        errors := s.tally.errors
        warnings := s.tally.warnings
        originId := job.originId
        time := s.startedAt.map (fun startedAt => time - startedAt) } }

/-- The line for the log that the job starts. -/
def startLine (job : Job) : String :=
  "[task] " ++ job.task.id ++ " started target=" ++ job.name

/-- The line for the log that the job is finished. -/
def finishLine (job : Job) (t : Tally) : String :=
  "[task] " ++ job.task.id ++ " finished target=" ++ job.name ++
    " errors=" ++ toString t.errors ++ " warnings=" ++ toString t.warnings

/-- Go on with the time that was asked for: log a line, then notify the client. -/
def told (job : Job) (use : TimeUse) (time : Number) (s : Session) : Session × List Act :=
  match use with
  | .start =>
    ({ s with startedAt := some time },
      [.hand (.log .info (startLine job)), .hand (.notify (.taskStart (startNotice job time)))])
  | .finish =>
    (s,
      [.hand (.log .info (finishLine job s.tally)),
        .hand (.notify (.taskFinish (finishNotice job s time)))])

/-! ## Problems and visits -/

/-- The whole list of a document, for the client to put in place of what it has. -/
def publication (job : Job) (doc : Document) (ds : List Diagnostic) : Publish Diagnostic :=
  { document := doc, target := job.target, diagnostics := ds, originId := job.originId }

/-- The word for a severity in a trace line. -/
def severityWord : Severity → String
  | .error => "error"
  | .warning => "warning"
  | .info => "info"

/-- Take in a problem and count it under `counted`, whatever its own severity. -/
def takeProblem (job : Job) (setup : Trace.Setup) (p : Problem) (counted : Severity) (s : Session) :
    Attempt Session Plan :=
  match Document.ofPosition p.position job.target with
  | .error e => { state := s, result := .error e }
  | .ok doc =>
    ((s.board.add setup doc (Diagnostic.ofProblem p)).within
        (fun board => { s with board })).andThen fun s ds =>
      .note setup .reporter "problem"
        [("counted", .string (severityWord counted)), ("uri", .string doc.uri),
          ("total", .number ds.length)]
        s (.acts [.hand (.notify (.publish (publication job doc ds))), .count counted])

/-- Publish what there is of a compiled file, be it nothing. -/
def takeVisit (job : Job) (setup : Trace.Setup) (path : String) (s : Session) :
    Attempt Session Plan :=
  match Document.ofPath path with
  | .error e => { state := s, result := .error e }
  | .ok doc =>
    ((s.board.mention setup doc).within (fun board => { s with board })).andThen fun s ds =>
      { state := s, result := .ok (.acts [.hand (.notify (.publish (publication job doc ds)))]) }

/-! ## All calls -/

/-- The first stretch of a call. -/
def begin (job : Job) (setup : Trace.Setup) (call : Call) (s : Session) : Attempt Session Plan :=
  match call with
  | .start =>
    let (s, plan) := s.beginStart job
    { state := s, result := .ok plan }
  | .finish | .summary =>
    let (s, plan) := s.beginFinish job
    { state := s, result := .ok plan }
  | .problem counted p => s.takeProblem job setup p counted
  | .ownProblem p => s.takeProblem job setup p p.severity
  | .visit path => s.takeVisit job setup path

/-- Count a problem. -/
def counted (severity : Severity) (s : Session) : Session :=
  { s with tally := s.tally.count severity }

end BuildFeed.Session
