-- What a session is about, and what comes with it: the target, the task, the request that
-- asked for it, and the logger and the clock to use. A job needs a target and a task.
import BuildFeed.Protocol.Notice

namespace BuildFeed

/-- One compilation of one target. -/
structure Job where
  target : Target
  /-- The name of the target for people. -/
  name : String
  task : TaskId
  /-- The client's id of the request, which goes back with diagnostics and the report. -/
  originId : Option String := none
  deriving DecidableEq, Inhabited

/-- Who takes log messages: nobody, a recorder, or a connection under a label. -/
inductive Logger where
  | silent
  | recorder
  | connection (label : String)
  deriving DecidableEq, Inhabited

/-- The label of log messages on a connection where no other is given. -/
def Logger.usualLabel : String := "[compile-reporter]"

/-- Where times come from: the wall clock, or a list of readings of which the last one stays. -/
inductive Clock where
  | wall
  | readings (times : List Number)
  deriving DecidableEq, Inhabited

/-- Read a clock while the wall clock shows `wall`. -/
def Clock.read (wall : Number) : Clock → Number × Clock
  | .wall => (wall, .wall)
  | .readings [] => (wall, .readings [])
  | .readings [t] => (t, .readings [t])
  | .readings (t :: rest) => (t, .readings rest)

/-- A job with the collaborators that were chosen for it, if any. -/
structure Options where
  job : Job
  logger : Option Logger := none
  clock : Option Clock := none
  deriving Inhabited

/-- A job that is in order, with all collaborators settled. -/
structure Settings where
  job : Job
  logger : Logger
  clock : Clock
  deriving Inhabited

/-- The settings that options come to: no logger is a silent one, and no clock the wall clock. -/
def Options.settle (o : Options) : Except Fault Settings :=
  if o.job.target.uri = "" then .error .emptyTarget
  else if o.job.task.id = "" then .error .emptyTask
  else .ok { job := o.job, logger := o.logger.getD .silent, clock := o.clock.getD .wall }

end BuildFeed
