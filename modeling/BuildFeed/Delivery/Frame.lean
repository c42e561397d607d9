-- Frames: a message as it goes over the wire, its length in bytes before it. The length is that
-- of its UTF-8 form, in which nothing but what JSON demands is escaped.
import BuildFeed.Delivery.Event

namespace BuildFeed

/-- A message and the length that is announced for it. -/
structure Frame where
  length : Nat
  message : Json
  deriving Inhabited

/-- How many bytes a text takes in UTF-8. -/
def byteLength : List Char → Nat
  | [] => 0
  | c :: cs => c.utf8Size + byteLength cs

/-- The frame of a message. -/
def Frame.of (message : Json) : Frame := { length := byteLength message.chars, message }

/-- A notification as a message. -/
def Outgoing.message {δ : Type} (encode : δ → Json) (o : Outgoing δ) : Json :=
  .object [("jsonrpc", .string "2.0"), ("method", .string o.method), ("params", o.toJson encode)]

/-- The frames that were written among all that happened. -/
def Event.frames {δ : Type} (encode : δ → Json) (events : List (Event δ)) : List Frame :=
  events.filterMap fun
    | .sent o => some (.of (o.message encode))
    | _ => none

/-- All that happened but for the frames that were written. -/
def Event.unsent {δ : Type} (events : List (Event δ)) : List (Event δ) :=
  events.filter fun
    | .sent _ => false
    | _ => true

end BuildFeed
