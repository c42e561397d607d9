-- A connection as its sends see it: one with a script of outcomes, or a live one that accepts
-- everything until it is disposed of.
import BuildFeed.Delivery.Failure

namespace BuildFeed

/-- A connection and how its sends will end. -/
inductive Connection where
  /-- The outcomes of the sends to come; the last one stays, and with none every send is
  accepted. -/
  | scripted (outcomes : List Outcome)
  | live (disposed : Bool)
  deriving Inhabited

namespace Connection

/-- Why a connection that is disposed of sends nothing. -/
def disposedReason : Reason := .plain "Connection is disposed."

/-- The outcome of the next send, and the connection after it. -/
def next : Connection → Outcome × Connection
  | .scripted [] => (.accepted, .scripted [])
  | .scripted [o] => (o, .scripted [o])
  | .scripted (o :: rest) => (o, .scripted rest)
  | .live false => (.accepted, .live false)
  | .live true => (.thrown disposedReason, .live true)

/-- Whether a send leaves a mark: what a disposed connection is given is seen by nobody. -/
def marks : Connection → Bool
  | .scripted _ => true
  | .live disposed => !disposed

/-- Dispose of a connection. A script knows nothing of that. -/
def dispose : Connection → Connection
  | .scripted outcomes => .scripted outcomes
  | .live _ => .live true

end Connection

end BuildFeed
