-- What the post sends. Whatever is done with it, its connection is just as far as the sends have
-- brought it. A notification goes out by itself, and all else that goes out is messages for the
-- log.
import BuildFeed.Delivery.Arrivals
import BuildFeed.Delivery.Post
import BuildFeed.Proofs.Trace.Plain

namespace BuildFeed

variable {δ : Type}

theorem Event.sends_append (events es : List (Event δ)) :
    Event.sends (events ++ es) = Event.sends events ++ Event.sends es :=
  List.filterMap_append

/-- Nothing but messages for the log. -/
def OnlyMessages (os : List (Outgoing δ)) : Prop :=
  ∀ o ∈ os, ∃ type message, o = .logMessage type message

theorem OnlyMessages.nil : OnlyMessages ([] : List (Outgoing δ)) := by
  intro o ho
  cases ho

theorem OnlyMessages.append {os ps : List (Outgoing δ)} (h : OnlyMessages os)
    (h' : OnlyMessages ps) : OnlyMessages (os ++ ps) := by
  intro o ho
  exact (List.mem_append.mp ho).elim (h o) (h' o)

/-! ## A connection along its sends -/

namespace Connection

theorem marks_next (c : Connection) : c.next.2.marks = c.marks := by
  fun_cases next <;> rfl

theorem after_append (c : Connection) (os ps : List (Outgoing δ)) :
    c.after (os ++ ps) = (c.after os).after ps :=
  List.foldl_append

theorem marks_after (c : Connection) (os : List (Outgoing δ)) : (c.after os).marks = c.marks := by
  induction os generalizing c with
  | nil => rfl
  | cons o rest ih => exact (ih c.next.2).trans c.marks_next

theorem map_fst_delivers (c : Connection) (os : List (Outgoing δ)) :
    (c.delivers os).map Prod.fst = os := by
  induction os generalizing c with
  | nil => rfl
  | cons o rest ih => exact congrArg (List.cons o) (ih c.next.2)

end Connection

/-! ## The post along its sends -/

namespace Post

variable {p q r : Post δ} {os ps : List (Outgoing δ)}

/-- One post has become another, and on the way it has sent `os`, which leave their marks. -/
structure Sent (p : Post δ) (os : List (Outgoing δ)) (q : Post δ) : Prop where
  events : Event.sends q.events = Event.sends p.events ++ os
  connection : q.connection = p.connection.after os

theorem Sent.refl (p : Post δ) : Sent p [] p := ⟨(List.append_nil _).symm, rfl⟩

theorem Sent.trans (h : Sent p os q) (h' : Sent q ps r) : Sent p (os ++ ps) r where
  events := by rw [h'.events, h.events, List.append_assoc]
  connection := by rw [h'.connection, h.connection, Connection.after_append]

theorem Sent.marks (h : Sent p os q) : q.connection.marks = p.connection.marks := by
  rw [h.connection, Connection.marks_after]

theorem sent_mark {e : Event δ} (he : e.sent? = none) (p : Post δ) : Sent p [] (p.mark e) := by
  have hnone : Event.sends [e] = [] := by simp [Event.sends, he]
  exact ⟨by rw [mark, Event.sends_append, hnone], rfl⟩

theorem sent_markTraced (written : List Trace.Written) (p : Post δ) :
    Sent p [] (p.markTraced written) := by
  have hnone : Event.sends (written.map (Event.traced (δ := δ))) = [] := by
    simp [Event.sends, Event.sent?]
  exact ⟨by rw [markTraced, Event.sends_append, hnone], rfl⟩

theorem events_send (hm : p.connection.marks = true) (o : Outgoing δ)
    (failed : Reason → Failure) : (p.send o failed).events = p.events ++ [.sent o] := by
  unfold send
  rw [if_pos hm]
  rfl

theorem sent_send (hm : p.connection.marks = true) (o : Outgoing δ) (failed : Reason → Failure) :
    Sent p [o] (p.send o failed) := by
  refine ⟨?_, rfl⟩
  rw [events_send hm, Event.sends_append]
  rfl

theorem sent_log (hm : p.connection.marks = true) (logger : Logger) (level : Level)
    (message : String) : ∃ os, Sent p os (p.log logger level message) ∧ OnlyMessages os := by
  unfold log
  cases logger with
  | silent => exact ⟨[], .refl p, .nil⟩
  | recorder => exact ⟨[], sent_mark rfl p, .nil⟩
  | connection label => exact ⟨_, sent_send hm _ _, by simp [OnlyMessages]⟩

theorem sent_handle (hm : p.connection.marks = true) (logger : Logger) (f : Failure) :
    ∃ os, Sent p os (p.handle logger f) ∧ OnlyMessages os := by
  unfold handle
  cases f with
  | notice method reason =>
    simp only
    split
    · exact sent_log hm ..
    · exact ⟨[], .refl p, .nil⟩
  | logMessage message reason =>
    simp only
    split
    · exact ⟨[], sent_mark rfl p, .nil⟩
    · exact ⟨[], .refl p, .nil⟩

theorem sent_drain (hm : p.connection.marks = true) (logger : Logger) :
    ∃ os, Sent p os (p.drain logger) ∧ OnlyMessages os := by
  fun_induction drain logger p with
  | case1 p hw => exact ⟨[], .refl p, .nil⟩
  | case2 p f rest hw ih =>
    have hmarks : ({ p with waiting := rest } : Post δ).connection.marks = true := hm
    obtain ⟨os, hhandled, hos⟩ := sent_handle hmarks logger f
    obtain ⟨ps, hdrained, hps⟩ := ih (hhandled.marks.trans hmarks)
    have hoff : Sent p [] { p with waiting := rest } := ⟨(List.append_nil _).symm, rfl⟩
    exact ⟨_, hoff.trans (hhandled.trans hdrained), hos.append hps⟩

/-! ## Notifications -/

theorem isPlain_tracePoint (n : Notice δ) : ∀ e ∈ (tracePoint n).2, e.2.isPlain = true := by
  cases n <;> simp [tracePoint, Trace.Value.isPlain]

/-- While the calendar reaches the clock, only the trace line comes before the send. -/
theorem notify_of_timely {setup : Trace.Setup} (ht : setup.Timely) (n : Notice δ) (p : Post δ) :
    ∃ written, p.notify setup n =
      ((p.markTraced written).send (.notice n) (.notice n.method), .ok ()) := by
  obtain ⟨written, hw⟩ :=
    Trace.Setup.note_of_isPlain ht .client (tracePoint n).1 (isPlain_tracePoint n)
  refine ⟨written, ?_⟩
  unfold notify
  simp only [hw]

/-- While the calendar reaches the clock, a notification is sent, whatever becomes of it, and
nothing is raised. -/
theorem sent_notify (hm : p.connection.marks = true) {setup : Trace.Setup} (ht : setup.Timely)
    (n : Notice δ) :
    ∃ q, p.notify setup n = (q, .ok ()) ∧ Sent p [.notice n] q := by
  obtain ⟨written, hnotify⟩ := notify_of_timely ht n p
  have hmarks : (p.markTraced written).connection.marks = true := hm
  exact ⟨_, hnotify, (sent_markTraced written p).trans (sent_send hmarks ..)⟩

end Post

end BuildFeed
