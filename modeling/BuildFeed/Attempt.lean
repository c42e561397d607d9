-- An operation that writes trace lines and may fail on the way. What it changed before it
-- failed stays changed, and what it wrote stays written.
import BuildFeed.Trace.Setup

namespace BuildFeed

/-- What an operation leaves: the state, the trace lines, and its result. -/
structure Attempt (σ α : Type) where
  state : σ
  written : List Trace.Written := []
  result : Except Fault α

namespace Attempt

variable {σ α β : Type}

/-- Write a trace line, then have `value`; if the line fails, so does the attempt. -/
def note (setup : Trace.Setup) (channel : Trace.Channel) (point : String) (data : Trace.Data)
    (state : σ) (value : α) : Attempt σ α :=
  match setup.note channel point (some { entries := data }) with
  | .ok written => { state, written, result := .ok value }
  | .error e => { state, result := .error e }

/-- Go on from a result; after a failure nothing more happens. -/
def andThen (a : Attempt σ α) (next : σ → α → Attempt σ β) : Attempt σ β :=
  match a.result with
  | .error e => { a with result := .error e }
  | .ok x =>
    let b := next a.state x
    { b with written := a.written ++ b.written }

/-- The same attempt at a part of a larger state. -/
def within (a : Attempt σ α) {τ : Type} (embed : σ → τ) : Attempt τ α :=
  { state := embed a.state, written := a.written, result := a.result }

end Attempt

end BuildFeed
