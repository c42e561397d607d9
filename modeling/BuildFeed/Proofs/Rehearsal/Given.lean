-- What the client of a rehearsal is given. A recorder is given each notification by an event, and
-- over a connection with a script each one is sent. Whatever else happens on the stage gives the
-- client nothing.
import BuildFeed.Session.Course
import BuildFeed.Proofs.Delivery.Sends

namespace BuildFeed.Rehearsal

open Session (Occasion)

/-! ## What the client is given -/

/-- The notification that an occasion is, if it is one. -/
def notice? : Occasion → Option (Notice Diagnostic)
  | .handed _ (.notify n) => some n
  | _ => none

/-- All notifications of a course, the first one first. -/
def notices (past : List Occasion) : List (Notice Diagnostic) := past.filterMap notice?

/-- The notification that a recorder is given by an event, if it is given one. -/
def recorded? : Event Diagnostic → Option (Notice Diagnostic)
  | .notified n => some n
  | _ => none

/-- All notifications that a recorder is given. -/
def recorded (events : List (Event Diagnostic)) : List (Notice Diagnostic) :=
  events.filterMap recorded?

/-- The notification that goes out, if it is one. -/
def posted? : Outgoing Diagnostic → Option (Notice Diagnostic)
  | .notice n => some n
  | _ => none

/-- All notifications that go out. -/
def posted (os : List (Outgoing Diagnostic)) : List (Notice Diagnostic) := os.filterMap posted?

theorem notices_append (past es : List Occasion) :
    notices (past ++ es) = notices past ++ notices es :=
  List.filterMap_append

theorem recorded_append (events es : List (Event Diagnostic)) :
    recorded (events ++ es) = recorded events ++ recorded es :=
  List.filterMap_append

theorem posted_append (os ps : List (Outgoing Diagnostic)) :
    posted (os ++ ps) = posted os ++ posted ps :=
  List.filterMap_append

theorem posted_of_onlyMessages {os : List (Outgoing Diagnostic)} (h : OnlyMessages os) :
    posted os = [] := by
  refine List.filterMap_eq_nil_iff.mpr fun o ho => ?_
  obtain ⟨type, message, rfl⟩ := h o ho
  rfl

theorem recorded_mark {e : Event Diagnostic} (he : recorded? e = none) (p : Post Diagnostic) :
    recorded (p.mark e).events = recorded p.events := by
  have hnone : recorded [e] = [] := List.filterMap_eq_nil_iff.mpr (by simpa using he)
  rw [Post.mark, recorded_append, hnone, List.append_nil]

theorem recorded_markTraced (written : List Trace.Written) (p : Post Diagnostic) :
    recorded (p.markTraced written).events = recorded p.events := by
  have hnone : recorded (written.map .traced) = [] := by
    refine List.filterMap_eq_nil_iff.mpr fun e he => ?_
    obtain ⟨w, -, rfl⟩ := List.mem_map.mp he
    rfl
  unfold Post.markTraced
  rw [recorded_append, hnone, List.append_nil]

theorem recorded_log (logger : Logger) (level : Level) (message : String) (p : Post Diagnostic) :
    recorded (p.log logger level message).events = recorded p.events := by
  unfold Post.log
  split
  · rfl
  · exact recorded_mark rfl p
  · unfold Post.send
    by_cases hmarks : p.connection.marks = true
    · simp only [hmarks, if_true]
      exact recorded_mark rfl p
    · simp [hmarks]

theorem recorded_handle (logger : Logger) (f : Failure) (p : Post Diagnostic) :
    recorded (p.handle logger f).events = recorded p.events := by
  unfold Post.handle
  split
  · split
    · exact recorded_log ..
    · rfl
  · split
    · exact recorded_mark rfl p
    · rfl

theorem recorded_drain (logger : Logger) (p : Post Diagnostic) :
    recorded (p.drain logger).events = recorded p.events := by
  fun_induction Post.drain logger p with
  | case1 p hw => rfl
  | case2 p f rest hw ih => exact ih.trans (recorded_handle ..)

/-! ## Where no notification is given -/

/-- A connection with a script, of which nobody can dispose. -/
def isScripted : Connection → Bool
  | .scripted _ => true
  | .live _ => false

theorem isScripted_after {connection : Connection} (h : isScripted connection = true)
    (os : List (Outgoing Diagnostic)) : isScripted (connection.after os) = true := by
  induction os generalizing connection with
  | nil => exact h
  | cons o rest ih =>
    refine ih ?_
    cases connection with
    | live disposed => cases h
    | scripted outcomes => rcases outcomes with _ | ⟨o, _ | ⟨o', rest⟩⟩ <;> rfl

theorem marks_of_isScripted {connection : Connection} (h : isScripted connection = true) :
    connection.marks = true := by
  cases connection with
  | scripted outcomes => rfl
  | live disposed => cases h

theorem dispose_of_isScripted {connection : Connection} (h : isScripted connection = true) :
    connection.dispose = connection := by
  cases connection with
  | scripted outcomes => rfl
  | live disposed => cases h

theorem isScripted_send {p : Post Diagnostic} (hs : isScripted p.connection = true)
    (o : Outgoing Diagnostic) (failed : Reason → Failure) :
    isScripted (p.send o failed).connection = true := by
  rw [(Post.sent_send (marks_of_isScripted hs) o failed).connection]
  exact isScripted_after hs [o]

theorem isScripted_drain {p : Post Diagnostic} (hs : isScripted p.connection = true)
    (logger : Logger) : isScripted (p.drain logger).connection = true := by
  obtain ⟨os, hsent, -⟩ := Post.sent_drain (marks_of_isScripted hs) logger
  rw [hsent.connection]
  exact isScripted_after hs os

/-- Nobody is given a notification, be it a recorder or the other end of a connection. -/
structure Quiet (p q : Post Diagnostic) : Prop where
  given : recorded q.events = recorded p.events
  sent : isScripted p.connection = true → ∃ os, Post.Sent p os q ∧ OnlyMessages os

theorem Quiet.refl (p : Post Diagnostic) : Quiet p p := ⟨rfl, fun _ => ⟨[], .refl p, .nil⟩⟩

theorem quiet_mark {e : Event Diagnostic} (he : recorded? e = none) (hs : e.sent? = none)
    (p : Post Diagnostic) : Quiet p (p.mark e) :=
  ⟨recorded_mark he p, fun _ => ⟨[], Post.sent_mark hs p, .nil⟩⟩

theorem quiet_markTraced (written : List Trace.Written) (p : Post Diagnostic) :
    Quiet p (p.markTraced written) :=
  ⟨recorded_markTraced written p, fun _ => ⟨[], Post.sent_markTraced written p, .nil⟩⟩

theorem quiet_drain (logger : Logger) (p : Post Diagnostic) : Quiet p (p.drain logger) :=
  ⟨recorded_drain logger p, fun h => Post.sent_drain (marks_of_isScripted h) logger⟩

theorem quiet_dispose (p : Post Diagnostic) :
    Quiet p { p with connection := p.connection.dispose } :=
  ⟨rfl, fun h => ⟨[], ⟨(List.append_nil _).symm, dispose_of_isScripted h⟩, .nil⟩⟩

end BuildFeed.Rehearsal
