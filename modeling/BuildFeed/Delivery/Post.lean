-- The post: what goes out over a connection, and the failures that come back. A failed send
-- never troubles whoever sent. It waits in a queue, first come first served, until the queue is
-- drained. A failed notification then becomes a message for the log; a log message that fails
-- itself ends on standard error, so draining always comes to an end.
import BuildFeed.Delivery.Connection
import BuildFeed.Delivery.Event

namespace BuildFeed

/-- The connection, the failures that wait, and what has happened. -/
structure Post (δ : Type) where
  connection : Connection := .scripted []
  waiting : List Failure := []
  events : List (Event δ) := []
  deriving Inhabited

namespace Post

variable {δ : Type}

/-! ## Sending -/

/-- Note that something happened. -/
def mark (e : Event δ) (p : Post δ) : Post δ := { p with events := p.events ++ [e] }

/-- Note the trace lines that were written. -/
def markTraced (written : List Trace.Written) (p : Post δ) : Post δ :=
  { p with events := p.events ++ written.map .traced }

/-- Send something. If that fails, `failed` of the reason waits at the end of the queue. -/
def send (o : Outgoing δ) (failed : Reason → Failure) (p : Post δ) : Post δ :=
  let marked := if p.connection.marks then p.mark (.sent o) else p
  let (outcome, connection) := p.connection.next
  { marked with
    connection
    waiting := marked.waiting ++ (outcome.failure?.map failed).toList }

/-- Give a message to a logger. Over a connection it carries the logger's label. -/
def log (logger : Logger) (level : Level) (message : String) (p : Post δ) : Post δ :=
  match logger with
  | .silent => p
  | .recorder => p.mark (.logged level message)
  | .connection label =>
    let message := label ++ " " ++ message
    p.send (.logMessage level.messageType message) (.logMessage message)

/-- The trace point of a notification, and what is shown of it. -/
def tracePoint : Notice δ → String × Trace.Data
  | .publish n =>
    ("publishDiagnostics",
      [("uri", .string n.document.uri), ("count", .number n.diagnostics.length)])
  | .taskStart n => ("taskStart", [("taskId", .string n.task.id)])
  | .taskFinish n =>
    ("taskFinish", [("taskId", .string n.task.id), ("status", .number n.status.number)])

/-- Send a notification over the connection. Only its trace line can fail, and then nothing
is sent. -/
def notify (setup : Trace.Setup) (n : Notice δ) (p : Post δ) : Post δ × Except Fault Unit :=
  let (point, data) := tracePoint n
  match setup.note .client point (some { entries := data }) with
  | .error e => (p, .error e)
  | .ok written => ((p.markTraced written).send (.notice n) (.notice n.method), .ok ())

/-! ## Failures -/

/-- Deal with a failure. Of one whose reason has no words nothing is said. -/
def handle (logger : Logger) (f : Failure) (p : Post δ) : Post δ :=
  match f with
  | .notice method reason =>
    match reason.text with
    | .ok text => p.log logger .error (Failure.report method text)
    | .error _ => p
  | .logMessage message reason =>
    match reason.text with
    | .ok text => p.mark (.stderr (Failure.lastResort message text))
    | .error _ => p

/-- How much work a failure can still make: a notification its own and that of a log message. -/
def weight : Failure → Nat
  | .notice _ _ => 2
  | .logMessage _ _ => 1

/-- How much work a queue of failures can still make. -/
def load : List Failure → Nat
  | [] => 0
  | f :: rest => weight f + load rest

theorem load_append (fs gs : List Failure) : load (fs ++ gs) = load fs + load gs := by
  induction fs with
  | nil => simp [load]
  | cons f fs ih => simp only [List.cons_append, load, ih]; omega

/-- Sending a log message adds at most one failure. -/
theorem load_log_le (logger : Logger) (level : Level) (message : String) (p : Post δ) :
    load (p.log logger level message).waiting ≤ load p.waiting + 1 := by
  unfold log
  split
  · exact Nat.le_succ _
  · exact Nat.le_succ _
  · simp only [send, mark]
    split <;> cases p.connection.next.1.failure? <;> simp [load_append, load, weight]

/-- Dealing with a failure that was taken off the queue makes less work than it was. -/
theorem load_handle_lt (logger : Logger) (f : Failure) (p : Post δ) :
    load (p.handle logger f).waiting < load p.waiting + weight f := by
  cases f with
  | notice method reason =>
    simp only [handle, weight]
    split
    · rename_i text _
      have := load_log_le logger .error (Failure.report method text) p
      omega
    · omega
  | logMessage message reason =>
    simp only [handle, weight]
    split
    · exact Nat.lt_succ_self _
    · exact Nat.lt_succ_self _

/-- Deal with all failures, also with those that come up on the way. -/
def drain (logger : Logger) (p : Post δ) : Post δ :=
  match _hw : p.waiting with
  | [] => p
  | f :: rest => drain logger ({ p with waiting := rest }.handle logger f)
termination_by load p.waiting
decreasing_by
  have := load_handle_lt logger f { p with waiting := rest }
  simp only [_hw, load] at this ⊢
  omega

theorem drain_of_nil (logger : Logger) {p : Post δ} (hw : p.waiting = []) : p.drain logger = p := by
  unfold drain
  split
  · rfl
  · rename_i heq
    rw [hw] at heq
    cases heq

theorem drain_of_cons (logger : Logger) {p : Post δ} {f : Failure} {rest : List Failure}
    (hw : p.waiting = f :: rest) :
    p.drain logger = ({ p with waiting := rest }.handle logger f).drain logger := by
  rw [drain]
  split
  · rename_i heq
    rw [hw] at heq
    cases heq
  · rename_i heq
    obtain ⟨rfl, rfl⟩ := List.cons.inj (hw.symm.trans heq)
    rfl

end Post

end BuildFeed
