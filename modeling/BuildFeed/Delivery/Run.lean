-- The post on its own: notifications, log messages and drains one after the other.
import BuildFeed.Delivery.Post

namespace BuildFeed.Post

variable {δ : Type}

/-- One thing to do with the post. -/
inductive Step (δ : Type) where
  | notify (n : Notice δ)
  | log (level : Level) (message : String)
  | drain
  deriving Inhabited

/-- Do one thing. -/
def perform (setup : Trace.Setup) (logger : Logger) (p : Post δ) :
    Step δ → Post δ × Except Fault Unit
  | .notify n => p.notify setup n
  | .log level message => (p.log logger level message, .ok ())
  | .drain => (p.drain logger, .ok ())

/-- The same post with nothing noted yet. -/
def fresh (p : Post δ) : Post δ := { p with events := [] }

/-- Do all things in turn. Each has its own events; the post is what it is after the last. -/
def run (setup : Trace.Setup) (logger : Logger) (p : Post δ) :
    List (Step δ) → List (List (Event δ) × Except Fault Unit) × Post δ
  | [] => ([], p)
  | step :: rest =>
    let (after, result) := p.fresh.perform setup logger step
    let (results, last) := run setup logger after rest
    ((after.events, result) :: results, last)

/-- What still happens when the post is drained at the end. -/
def remaining (logger : Logger) (p : Post δ) : List (Event δ) := (p.fresh.drain logger).events

end BuildFeed.Post
