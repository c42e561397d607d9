-- What failed sends come to. The failures of sends can be read off the connection. Each has one
-- consequence: a notification that failed is told to the logger, a log message that failed goes to
-- standard error. Only a reason without words, or a logger that is silent, leaves nothing to tell.
import Mathlib.Data.List.Forall2
import BuildFeed.Delivery.Arrivals

namespace BuildFeed

variable {δ : Type}

/-! ## Failures -/

/-- The failure that a send comes to for a reason. -/
def Outgoing.failed : Outgoing δ → Reason → Failure
  | .notice n, reason => .notice n.method reason
  | .logMessage _ message, reason => .logMessage message reason

/-- The failures among sends made one after the other, the first one first. -/
def Connection.failures (c : Connection) : List (Outgoing δ) → List Failure
  | [] => []
  | o :: rest => (c.next.1.failure?.map o.failed).toList ++ c.next.2.failures rest

def Failure.reason : Failure → Reason
  | .notice _ reason => reason
  | .logMessage _ reason => reason

/-- There are words for the reason of a failure. -/
def Failure.Worded (f : Failure) : Prop := ∃ text, f.reason.text = .ok text

instance (f : Failure) : Decidable f.Worded :=
  match h : f.reason.text with
  | .ok text => isTrue ⟨text, h⟩
  | .error _ => isFalse (by
      rintro ⟨text, ht⟩
      rw [h] at ht
      cases ht)

/-- Whether a failure is one of a log message. -/
def Failure.isOfMessage : Failure → Bool
  | .notice _ _ => false
  | .logMessage _ _ => true

/-! ## Consequences -/

/-- What tells of a failure whose reason has these words, if there is a logger to be told. -/
def Failure.tale? (logger : Logger) (text : String) : Failure → Option (Event δ)
  | .notice method _ =>
    match logger with
    | .silent => none
    | .recorder => some (.logged .error (report method text))
    | .connection label =>
      some (.sent (.logMessage .error (label ++ " " ++ report method text)))
  | .logMessage message _ => some (.stderr (lastResort message text))

/-- What tells of a failure. -/
def Failure.consequence? (logger : Logger) (f : Failure) : Option (Event δ) :=
  match f.reason.text with
  | .ok text => f.tale? logger text
  | .error _ => none

/-- The consequences of failures, in the order of the failures. -/
def Failure.consequences (logger : Logger) (fs : List Failure) : List (Event δ) :=
  fs.filterMap (consequence? logger)

/-- The events by which failures are told: messages of errors, and texts on standard error that are
no trace lines. -/
def Event.isConsequence : Event δ → Bool
  | .logged .error _ => true
  | .sent (.logMessage .error _) => true
  | .stderr _ => true
  | _ => false

/-- The events by which failures of log messages are told. -/
def Event.isLastResort : Event δ → Bool
  | .stderr _ => true
  | _ => false

/-- The events that put something in words, for the log or on standard error; trace lines are
none. -/
def Event.isWord : Event δ → Bool
  | .logged _ _ => true
  | .sent (.logMessage _ _) => true
  | .stderr _ => true
  | _ => false

/-! ## What is told -/

/-- The event by which a failure is to be told, with its whole text. A notification that failed is
told to the logger at the level of errors, behind the label of the logger if that has one. A log
message that failed is written to standard error. -/
inductive Failure.ToldBy (logger : Logger) : Failure → Event δ → Prop
  | logged {method text : String} {reason : Reason} :
      logger = .recorder → reason.text = .ok text →
      ToldBy logger (.notice method reason) (.logged .error (method ++ " failed: " ++ text))
  | sent {label method text : String} {reason : Reason} :
      logger = .connection label → reason.text = .ok text →
      ToldBy logger (.notice method reason)
        (.sent (.logMessage .error (label ++ " " ++ method ++ " failed: " ++ text)))
  | written {message text : String} {reason : Reason} :
      reason.text = .ok text →
      ToldBy logger (.logMessage message reason)
        (.stderr (message ++ "\n(build/logMessage failed: " ++ text ++ ")\n"))

/-- Among all events those of a kind tell of failures, one by one: of all failures that `of` picks out,
of each just once, in the order of the failures, and after the send that failed. -/
structure Told (logger : Logger) (opening : Connection) (of : Failure → Bool)
    (kind : Event δ → Bool) (events : List (Event δ)) : Prop where
  each : List.Forall₂ (Failure.ToldBy logger)
    ((opening.failures (Event.sends events)).filter of) (events.filter kind)
  later : ∀ past e, past ++ [e] <+: events →
    ∃ dealt, dealt <+: (opening.failures (Event.sends past)).filter of ∧
      List.Forall₂ (Failure.ToldBy logger) dealt ((past ++ [e]).filter kind)

end BuildFeed
