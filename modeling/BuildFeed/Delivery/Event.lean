-- What can be seen to happen around a session.
import BuildFeed.Session.Basic

namespace BuildFeed

/-- One thing that happened. -/
inductive Event (δ : Type) where
  /-- A clock of readings was read. -/
  | now (time : Number)
  /-- A recorder was given a log message. -/
  | logged (level : Level) (message : String)
  /-- A recorder was given a notification. -/
  | notified (n : Notice δ)
  /-- Something was sent over the connection. -/
  | sent (o : Outgoing δ)
  /-- A text went to standard error. -/
  | stderr (text : String)
  /-- A trace line was written. -/
  | traced (line : Trace.Written)
  /-- A step of an interruption began. -/
  | called (step : String)
  /-- A step of an interruption returned. -/
  | returned (step : String) (answer : Session.Answer)
  deriving Inhabited

end BuildFeed
