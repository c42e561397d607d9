-- What arrives at the other end of a connection. Of the publications that are sent only those that
-- are accepted get there, and each takes the place of what the other end showed of its document.
import BuildFeed.Delivery.Connection
import BuildFeed.Delivery.Event

namespace BuildFeed

variable {δ : Type}

/-! ## Sends -/

def Event.sent? : Event δ → Option (Outgoing δ)
  | .sent o => some o
  | _ => none

/-- All that was sent, the first send first. -/
def Event.sends (events : List (Event δ)) : List (Outgoing δ) := events.filterMap Event.sent?

def Outgoing.publication? : Outgoing δ → Option (Publish δ)
  | .notice (.publish p) => some p
  | _ => none

def Outcome.isAccepted : Outcome → Bool
  | .accepted => true
  | _ => false

namespace Connection

def after (c : Connection) (sends : List (Outgoing δ)) : Connection :=
  sends.foldl (fun c _ => c.next.2) c

/-- Sends one after the other, and whether each is accepted. -/
def delivers (c : Connection) : List (Outgoing δ) → List (Outgoing δ × Bool)
  | [] => []
  | o :: rest => (o, c.next.1.isAccepted) :: delivers c.next.2 rest

end Connection

/-! ## The other end -/

/-- What the other end shows after a send: only a publication that is accepted takes its place. -/
def Board.receive (b : Board δ) : Outgoing δ × Bool → Board δ
  | (.notice (.publish p), true) => b.put p.document.uri p.diagnostics
  | _ => b

/-- What the other end shows after sends, the first send first. -/
def Board.shownAfter (deliveries : List (Outgoing δ × Bool)) : Board δ :=
  deliveries.foldl Board.receive {}

/-- Whether a publication for a URI is accepted, if a send is one. -/
def arrivalFor? (uri : String) : Outgoing δ × Bool → Option Bool
  | (.notice (.publish p), accepted) => if p.document.uri = uri then some accepted else none
  | _ => none

/-- Whether the last publication for a URI was accepted, if there was one. -/
def lastArrival? (uri : String) (deliveries : List (Outgoing δ × Bool)) : Option Bool :=
  (deliveries.filterMap (arrivalFor? uri)).getLast?

end BuildFeed
