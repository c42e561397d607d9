-- Two rehearsals held against each other, report by report. Of the events of each a view shows what
-- is to be compared; whatever comes up while failed sends are dealt with can be left out.
import BuildFeed.Rehearsal.Play

namespace BuildFeed

/-! ## Views -/

/-- All that happened but for trace lines. -/
def Event.untraced? {δ : Type} : Event δ → Option (Event δ)
  | .traced _ => none
  | e => some e

/-- What goes over a connection in place of what recorders are given, with a label before each log
message; trace lines left out. -/
def Event.carried? {δ : Type} (label : String) : Event δ → Option (Event δ)
  | .logged level message =>
    some (.sent (.logMessage level.messageType (label ++ " " ++ message)))
  | .notified n => some (.sent (.notice n))
  | .traced _ => none
  | e => some e

/-- All that is seen through a view of things done with a new post, one after the other, and of what
still happens at the end. -/
def Post.seen {δ : Type} (view : Event δ → Option (Event δ)) (setup : Trace.Setup)
    (logger : Logger) (connection : Connection) (steps : List (Post.Step δ)) :
    List (List (Event δ) × Except Fault Unit) × List (Event δ) :=
  let (done, last) := ({ connection } : Post δ).run setup logger steps
  (done.map (fun (events, result) => (events.filterMap view, result)),
    (last.remaining logger).filterMap view)

namespace Rehearsal

/-- A whole rehearsal from the options on, unless they are refused. -/
def rehearse (options : Options) (setup : Trace.Setup) (client : Client) (connection : Connection)
    (interruptions : List Interruption) (steps : List Step) :
    Except Fault (List Report × List (Event Diagnostic)) :=
  (opening options setup client connection).map fun (cast, stage) =>
    whole cast interruptions steps stage

/-- A report of what a view shows. -/
def Report.through (view : Event Diagnostic → Option (Event Diagnostic)) (r : Report) : Report :=
  { r with events := r.events.filterMap view }

/-- All that is seen of a whole rehearsal through a view, also of what happens at the end. -/
def through (view : Event Diagnostic → Option (Event Diagnostic))
    (done : List Report × List (Event Diagnostic)) : List Report × List (Event Diagnostic) :=
  (done.1.map (Report.through view), done.2.filterMap view)

/-- The reports of steps, those of drains without their events. -/
def outsideDrains (steps : List Step) (reports : List Report) : List Report :=
  reports.mapIdx fun i r => if steps[i]? = some .drain then { r with events := [] } else r

theorem outsideDrains_cons (step : Step) (steps : List Step) (r : Report) (reports : List Report) :
    outsideDrains (step :: steps) (r :: reports) =
      (if step = .drain then { r with events := [] } else r) :: outsideDrains steps reports := by
  simp [outsideDrains, List.mapIdx_cons]

end Rehearsal

end BuildFeed
