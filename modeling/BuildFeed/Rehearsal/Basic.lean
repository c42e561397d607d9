-- A rehearsal: a session played step by step with collaborators that do as they are told. They
-- record what they are given, and they can be made to interrupt: when one of them is called
-- for the n-th time, steps run on the same session before it returns, and it may raise an error
-- after them.
import BuildFeed.Delivery.Run
import BuildFeed.Session.Calls

namespace BuildFeed.Rehearsal

/-! ## The script -/

/-- One step of a rehearsal. -/
inductive Step where
  | call (c : Session.Call)
  | ask (q : Session.Query)
  /-- Deal with all failed sends. -/
  | drain
  /-- Dispose of the connection. -/
  | dispose
  deriving DecidableEq, Inhabited

/-- The moments at which an interruption can set in. -/
inductive Moment where
  | now
  | logInfo
  | logLog
  | taskStart
  | publish
  | taskFinish
  deriving DecidableEq, Inhabited

/-- Steps to run when a moment comes for the n-th time, and the error to raise after them. -/
structure Interruption where
  moment : Moment
  nth : Nat
  steps : List Step
  raises : Option String := none
  deriving DecidableEq, Inhabited

/-- Who takes the notifications: a recorder, or the connection. -/
inductive Client where
  | recorder
  | connection
  deriving DecidableEq, Inhabited

/-! ## The stage -/

/-- What stays the same for a whole rehearsal. -/
structure Cast where
  job : Job
  setup : Trace.Setup := {}
  logger : Logger := .silent
  client : Client := .recorder
  deriving Inhabited

/-- How often each moment has come. -/
structure Seen where
  now : Nat := 0
  logInfo : Nat := 0
  logLog : Nat := 0
  taskStart : Nat := 0
  publish : Nat := 0
  taskFinish : Nat := 0
  deriving DecidableEq, Inhabited

/-- How often a moment has come. -/
def Seen.of (s : Seen) : Moment → Nat
  | .now => s.now
  | .logInfo => s.logInfo
  | .logLog => s.logLog
  | .taskStart => s.taskStart
  | .publish => s.publish
  | .taskFinish => s.taskFinish

/-- A moment has come once more. -/
def Seen.add (s : Seen) : Moment → Seen
  | .now => { s with now := s.now + 1 }
  | .logInfo => { s with logInfo := s.logInfo + 1 }
  | .logLog => { s with logLog := s.logLog + 1 }
  | .taskStart => { s with taskStart := s.taskStart + 1 }
  | .publish => { s with publish := s.publish + 1 }
  | .taskFinish => { s with taskFinish := s.taskFinish + 1 }

/-- The count of the moment that has come goes up by one, and no other. -/
theorem Seen.of_add (s : Seen) (m k : Moment) :
    (s.add m).of k = s.of k + if m = k then 1 else 0 := by
  cases m <;> cases k <;> simp [of, add]

/-- The session and everything around it. -/
structure Stage where
  session : Session := {}
  post : Post Diagnostic := {}
  clock : Clock := .wall
  seen : Seen := {}
  deriving Inhabited

namespace Stage

/-- Note that something happened. -/
def mark (e : Event Diagnostic) (s : Stage) : Stage := { s with post := s.post.mark e }

/-- Note the trace lines that were written. -/
def markTraced (written : List Trace.Written) (s : Stage) : Stage :=
  { s with post := s.post.markTraced written }

end Stage

/-- What doing something leaves: the stage, and a value or the error that ended it. -/
abbrev Result (α : Type) := Stage × Except Fault α

/-! ## The collaborators -/

/-- Read the clock. Only a clock of readings is seen to be read. -/
def readClock (cast : Cast) (s : Stage) : Number × Stage × Option Moment :=
  let (time, clock) := s.clock.read cast.setup.clock
  let s := { s with clock }
  match s.clock with
  | .wall => (time, s, none)
  | .readings _ => (time, s.mark (.now time), some .now)

/-- The moment that a notification to a recorder is. -/
def momentOf : Notice Diagnostic → Moment
  | .publish _ => .publish
  | .taskStart _ => .taskStart
  | .taskFinish _ => .taskFinish

/-- The moment that a message to a logger is, if it is one. -/
def logMoment? : Logger → Level → Option Moment
  | .recorder, .info => some .logInfo
  | .recorder, .log => some .logLog
  | _, _ => none

/-- Hand something over, up to the moment that it is, if it is one. -/
def give (cast : Cast) (h : Session.Handover) (s : Stage) : Result (Option Moment) :=
  match h with
  | .log level message =>
    ({ s with post := s.post.log cast.logger level message }, .ok (logMoment? cast.logger level))
  | .notify n =>
    match cast.client with
    | .recorder => (s.mark (.notified n), .ok (some (momentOf n)))
    | .connection =>
      let (post, result) := s.post.notify cast.setup n
      ({ s with post }, result.map (fun _ => none))

end BuildFeed.Rehearsal
