-- The session of one job: what is on the board, what has been counted, and whether the job
-- has started and finished. Each call on it is a stretch of the session's own work, perhaps a
-- look at the clock, and then a list of acts: something is handed to the logger or the build
-- client, or a problem is counted. Between its acts a call is suspended, and whoever was handed
-- something may make calls of its own.
import BuildFeed.Board.Basic
import BuildFeed.Tally
import BuildFeed.Latch
import BuildFeed.Job

namespace BuildFeed

/-- The state of a session. -/
structure Session where
  board : Board Diagnostic := {}
  tally : Tally := {}
  started : Latch := {}
  finished : Latch := {}
  /-- What the clock showed when the job started. -/
  startedAt : Option Number := none
  deriving Inhabited

namespace Session

/-- The calls on a session. -/
inductive Call where
  | start
  | finish
  /-- The end of the compiler's output, which finishes the job as well. -/
  | summary
  /-- A problem, to be counted under a severity that need not be its own. -/
  | problem (counted : Severity) (p : Problem)
  /-- A problem, to be counted under its own severity. -/
  | ownProblem (p : Problem)
  /-- A file that was compiled, with or without problems. -/
  | visit (path : String)
  deriving DecidableEq, Inhabited

/-- What a call hands to a collaborator: a message to the logger, or a notification to the
build client. -/
inductive Handover where
  | log (level : Level) (message : String)
  | notify (n : Notice Diagnostic)
  deriving DecidableEq, Inhabited

/-- One thing that a call still has to do. -/
inductive Act where
  | hand (h : Handover)
  | count (s : Severity)
  deriving DecidableEq, Inhabited

/-- What a call does with the time that it has asked for. -/
inductive TimeUse where
  | start
  | finish
  deriving DecidableEq, Inhabited

/-- How a call goes on after its first stretch of work. -/
inductive Plan where
  | askTime (use : TimeUse)
  | acts (todo : List Act)
  deriving DecidableEq, Inhabited

/-- What can be asked of a session at any moment. -/
inductive Query where
  | diagnostics (uri : String)
  | documents
  | tally
  | task
  deriving DecidableEq, Inhabited

/-- What comes back from a call or a query. -/
inductive Answer where
  | nothing
  | diagnostics (ds : List Diagnostic)
  | documents (uris : List String)
  | tally (t : Tally)
  | task (target : Target)
  deriving DecidableEq, Inhabited

/-- The answer to a query, which changes nothing. -/
def answer (job : Job) (s : Session) : Query → Answer
  | .diagnostics uri => .diagnostics (s.board.get uri)
  | .documents => .documents s.board.documents
  | .tally => .tally s.tally
  | .task => .task job.target

end Session

end BuildFeed
