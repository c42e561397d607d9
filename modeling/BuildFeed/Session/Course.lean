-- The course of a session whose collaborators do as they like. Whenever a call waits for the
-- clock, the logger or the client, they may call the session again, come back, or raise an error,
-- which ends the call that waits. Whoever made that call may raise the error further or let it
-- be. All that happened is kept, the first thing first.
import BuildFeed.Session.Calls

namespace BuildFeed.Session

/-- What a call that has begun waits for. -/
inductive Awaited where
  /-- The clock, for this use. -/
  | time (use : TimeUse)
  /-- The return of whoever was handed something, with this still to do. -/
  | back (h : Handover) (rest : List Act)
  deriving DecidableEq

/-- A call that has begun and not ended. The calls of a session are numbered from zero. -/
structure OpenCall where
  number : Nat
  call : Call
  awaited : Awaited
  deriving DecidableEq

/-- One thing that happened to the call of a number. -/
inductive Occasion where
  | began (number : Nat) (call : Call)
  | askedTime (number : Nat)
  | toldTime (number : Nat) (time : Number)
  | handed (number : Nat) (h : Handover)
  | cameBack (number : Nat)
  | returned (number : Nat)
  | failed (number : Nat) (e : Fault)
  deriving DecidableEq

/-- What the collaborators, or whoever uses the session, can do next. -/
inductive Move where
  /-- Make a call. -/
  | call (c : Call)
  /-- Tell the innermost open call the time. -/
  | time (t : Number)
  /-- Come back to the innermost open call. -/
  | back
  /-- Raise an error into the innermost open call. -/
  | raise (e : Fault)
  deriving DecidableEq

/-- A session, its open calls, the innermost first, and all that happened. -/
structure Course where
  session : Session := {}
  openCalls : List OpenCall := []
  begun : Nat := 0
  past : List Occasion := []

namespace Course

/-- Note that something happened. -/
def note (o : Occasion) (c : Course) : Course := { c with past := c.past ++ [o] }

/-- Put a call aside until what it waits for comes. -/
def suspend (number : Nat) (call : Call) (awaited : Awaited) (c : Course) : Course :=
  { c with openCalls := ⟨number, call, awaited⟩ :: c.openCalls }

/-- Carry on with what a call has to do, up to the next thing that it hands over or to its
end. -/
def proceed (number : Nat) (call : Call) : List Act → Course → Course
  | [], c => c.note (.returned number)
  | .count s :: rest, c => proceed number call rest { c with session := c.session.counted s }
  | .hand h :: rest, c => (c.note (.handed number h)).suspend number call (.back h rest)

/-- The course after a move. A move that does not fit what is waited for changes nothing. -/
def move (job : Job) (setup : Trace.Setup) (c : Course) : Move → Course
  | .call call =>
    let number := c.begun
    let first := c.session.begin job setup call
    let c := { c with session := first.state, begun := number + 1 }.note (.began number call)
    match first.result with
    | .error e => c.note (.failed number e)
    | .ok (.askTime use) => (c.note (.askedTime number)).suspend number call (.time use)
    | .ok (.acts todo) => c.proceed number call todo
  | .time t =>
    match c.openCalls with
    | ⟨number, call, .time use⟩ :: rest =>
      let (session, todo) := c.session.told job use t
      ({ c with session, openCalls := rest }.note (.toldTime number t)).proceed number call todo
    | _ => c
  | .back =>
    match c.openCalls with
    | ⟨number, call, .back _ todo⟩ :: rest =>
      ({ c with openCalls := rest }.note (.cameBack number)).proceed number call todo
    | _ => c
  | .raise e =>
    match c.openCalls with
    | o :: rest => { c with openCalls := rest }.note (.failed o.number e)
    | [] => c

/-- The course that a list of moves takes from a new session. -/
def run (job : Job) (setup : Trace.Setup) (moves : List Move) : Course :=
  moves.foldl (move job setup) {}

/-- One move more is made from where the others led. -/
theorem run_append_singleton (job : Job) (setup : Trace.Setup) (moves : List Move) (m : Move) :
    run job setup (moves ++ [m]) = (run job setup moves).move job setup m := by
  simp [run]

end Course

end BuildFeed.Session
