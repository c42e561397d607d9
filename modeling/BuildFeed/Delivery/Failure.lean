-- How a send can go wrong, and how the reason is told. A send that is refused on the spot and one
-- that is turned down later come to the same failure.
import BuildFeed.Trace.Value.Words
import BuildFeed.Protocol.Notice

namespace BuildFeed

/-- What a failed send carries: an error, with its stack if it has one, or any other value. -/
inductive Reason where
  | error (message : String) (stack : Option String)
  | value (v : Trace.Value)
  deriving Inhabited

namespace Reason

/-- An error with the stack that it has by itself: its kind and its message. -/
def plain (message : String) : Reason :=
  .error message (some (if message = "" then "Error" else "Error: " ++ message))

/-- The text of a reason: the stack of an error, its message if it has none, and any other
value in words, if there are words for it. -/
def text : Reason → Except Fault String
  | .error message stack => .ok (stack.getD message)
  | .value v => v.words

end Reason

/-- What becomes of a send. -/
inductive Outcome where
  | accepted
  /-- Refused on the spot. -/
  | thrown (reason : Reason)
  /-- Taken, and turned down later. -/
  | rejected (reason : Reason)
  deriving Inhabited

/-- The failure that a send comes to, however it is told. -/
def Outcome.failure? : Outcome → Option Reason
  | .accepted => none
  | .thrown reason => some reason
  | .rejected reason => some reason

/-- Two ends of a send that are the same, but for a refusal that comes on the spot in one and later
in the other. -/
inductive Outcome.Deferred : Outcome → Outcome → Prop
  | same (o : Outcome) : Deferred o o
  | later (reason : Reason) : Deferred (.thrown reason) (.rejected reason)
  | sooner (reason : Reason) : Deferred (.rejected reason) (.thrown reason)

/-- A failed send that waits to be dealt with: of a notification, or of a log message. -/
inductive Failure where
  | notice (method : String) (reason : Reason)
  | logMessage (message : String) (reason : Reason)
  deriving Inhabited

namespace Failure

/-- What the log is told of a notification that failed. -/
def report (method reason : String) : String := method ++ " failed: " ++ reason

/-- What standard error is told of a log message that failed: the message and the reason. -/
def lastResort (message reason : String) : String :=
  message ++ "\n(" ++ logMethod ++ " failed: " ++ reason ++ ")\n"
end Failure

end BuildFeed
