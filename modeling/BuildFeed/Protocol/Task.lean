-- The records of one compile task: its id, how it ended, and the reports of its start and its
-- finish.
import BuildFeed.Document

namespace BuildFeed

/-- The id of a task and of the tasks that it is part of. -/
structure TaskId where
  id : String
  parents : Option (List String) := none
  deriving DecidableEq, Inhabited

/-- A task id; no parents are the same as none named. -/
def TaskId.of (id : String) (parents : Option (List String)) : TaskId :=
  { id, parents := parents.filter (fun ps => !ps.isEmpty) }

/-- How a task ended. -/
inductive Status where
  | ok
  | error
  | cancelled
  deriving DecidableEq, Inhabited

/-- The number of a status in the protocol. -/
def Status.number : Status → Nat
  | .ok => 1
  | .error => 2
  | .cancelled => 3

/-- The status of a task with so many errors. -/
def Status.ofErrors (errors : Nat) : Status := if 0 < errors then .error else .ok

/-- The kind of the data that comes with the start of a compile task. -/
def taskKind : String := "compile-task"

/-- The kind of the data that comes with the finish of a compile task. -/
def reportKind : String := "compile-report"

/-- What a compile task came to. -/
structure CompileReport where
  target : Target
  errors : Number
  warnings : Number
  originId : Option String := none
  /-- Milliseconds from the start of the task to its finish. -/
  time : Option Number := none
  deriving DecidableEq, Inhabited

/-- The report that a task starts. -/
structure TaskStart where
  task : TaskId
  eventTime : Number
  message : String
  target : Target
  deriving DecidableEq, Inhabited

/-- The report that a task is finished. -/
structure TaskFinish where
  task : TaskId
  eventTime : Number
  status : Status
  message : String
  report : CompileReport
  deriving DecidableEq, Inhabited

/-! ## JSON -/

/-- A task id as JSON. -/
def TaskId.toJson (t : TaskId) : Json :=
  .object (("id", .string t.id) ::
    Json.optional "parents" (fun ps => .array (ps.map .string)) t.parents)

/-- The data of a compile task: its target. -/
def Target.taskJson (t : Target) : Json := .object [("target", t.toJson)]

/-- A compile report as JSON. -/
def CompileReport.toJson (r : CompileReport) : Json :=
  .object ([("target", r.target.toJson), ("errors", .number r.errors), ("warnings", .number r.warnings)] ++
    Json.optional "originId" .string r.originId ++ Json.optional "time" .number r.time)

/-- The report of a start as JSON. -/
def TaskStart.toJson (p : TaskStart) : Json :=
  .object [("taskId", p.task.toJson), ("eventTime", .number p.eventTime),
    ("message", .string p.message), ("dataKind", .string taskKind), ("data", p.target.taskJson)]

/-- The report of a finish as JSON. -/
def TaskFinish.toJson (p : TaskFinish) : Json :=
  .object [("taskId", p.task.toJson), ("eventTime", .number p.eventTime),
    ("status", .nat p.status.number), ("message", .string p.message),
    ("dataKind", .string reportKind), ("data", p.report.toJson)]

end BuildFeed
