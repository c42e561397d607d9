-- The course of a session whose client writes over a connection. The client sends what it is
-- handed and comes back at once, whatever becomes of the send. All others still do as they like:
-- the clock, the loggers, which may send over the same connection, and whoever uses the session or
-- deals with the failures that wait.
import BuildFeed.Delivery.Post
import BuildFeed.Session.Course

namespace BuildFeed

/-- A course, and the post over which its client writes. -/
structure Correspondence where
  course : Session.Course := {}
  post : Post Diagnostic := {}

namespace Correspondence

/-- What can be done next by anybody but the client. -/
inductive Move where
  /-- A move in the course, and the world that trace calls see while it is made. -/
  | course (setup : Trace.Setup) (m : Session.Move)
  /-- A message is given to a logger. -/
  | log (logger : Logger) (level : Level) (message : String)
  /-- The failure that has waited longest is dealt with. -/
  | deal (logger : Logger)

/-- While a move is made in the course, the calendar reaches the wall clock whenever times are
shown. -/
def Move.Timely : Move → Prop
  | .course setup _ => setup.Timely
  | _ => True

instance (m : Move) : Decidable m.Timely :=
  match m with
  | .course setup _ => inferInstanceAs (Decidable setup.Timely)
  | .log _ _ _ | .deal _ => inferInstanceAs (Decidable True)

/-- The client sends what it has been handed, if it has, and comes back. It raises an error only if
its trace line fails. -/
def answered (job : Job) (setup : Trace.Setup) (l : Correspondence) : Correspondence :=
  match l.course.openCalls with
  | ⟨_, _, .back (.notify n) _⟩ :: _ =>
    match l.post.notify setup n with
    | (post, .ok ()) => { course := l.course.move job setup .back, post }
    | (post, .error e) => { course := l.course.move job setup (.raise e), post }
  | _ => l

/-- The correspondence after a move. -/
def move (job : Job) (l : Correspondence) : Move → Correspondence
  | .course setup m => answered job setup { l with course := l.course.move job setup m }
  | .log logger level message => { l with post := l.post.log logger level message }
  | .deal logger =>
    match l.post.waiting with
    | [] => l
    | f :: rest => { l with post := { l.post with waiting := rest }.handle logger f }

/-- The correspondence that a list of moves makes of a new session over a connection. -/
def run (job : Job) (connection : Connection) (moves : List Move) : Correspondence :=
  moves.foldl (move job) { post := { connection } }

/-- One move more is made from where the others led. -/
theorem run_append_singleton (job : Job) (connection : Connection) (moves : List Move) (m : Move) :
    run job connection (moves ++ [m]) = (run job connection moves).move job m := by
  simp [run]

end Correspondence

end BuildFeed
