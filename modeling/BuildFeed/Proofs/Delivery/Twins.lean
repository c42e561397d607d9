-- Two posts that are given the same. Where every send fails on both for the same reason, be it on
-- the spot or later, the same failures wait on both and the same is in view, whatever is done with
-- them. Trace lines may be told apart only where they are in view.
import Mathlib.Data.List.Basic
import BuildFeed.Delivery.Run
import BuildFeed.Proofs.Delivery.Sends

namespace BuildFeed

variable {δ : Type}

/-! ## Connections that fail alike -/

/-- Two connections whose sends fail for the same reasons. -/
inductive Connection.FailsLike : Connection → Connection → Prop
  | scripted {outcomes outcomes' : List Outcome}
      (h : outcomes.map Outcome.failure? = outcomes'.map Outcome.failure?) :
      FailsLike (.scripted outcomes) (.scripted outcomes')
  | live (disposed : Bool) : FailsLike (.live disposed) (.live disposed)

namespace Connection.FailsLike

variable {c c' : Connection}

theorem refl (c : Connection) : FailsLike c c := by
  cases c with
  | scripted outcomes => exact .scripted rfl
  | live disposed => exact .live disposed

theorem marks (h : FailsLike c c') : c.marks = c'.marks := by
  cases h <;> rfl

theorem dispose (h : FailsLike c c') : FailsLike c.dispose c'.dispose := by
  cases h with
  | scripted h => exact .scripted h
  | live disposed => exact .live true

/-- The next send fails alike on both, and so do all after it. -/
theorem next (h : FailsLike c c') :
    c.next.1.failure? = c'.next.1.failure? ∧ FailsLike c.next.2 c'.next.2 := by
  cases h with
  | live disposed => exact ⟨rfl, .refl _⟩
  | @scripted outcomes outcomes' h =>
    rcases outcomes with _ | ⟨o, rest⟩ <;> rcases outcomes' with _ | ⟨o', rest'⟩
    · exact ⟨rfl, .scripted rfl⟩
    · cases h
    · cases h
    · obtain ⟨hfirst, hrest⟩ := List.cons.inj h
      -- the last outcome of a script stays
      rcases rest with _ | ⟨x, rest⟩ <;> rcases rest' with _ | ⟨x', rest'⟩
      · exact ⟨hfirst, .scripted h⟩
      · cases hrest
      · cases hrest
      · exact ⟨hfirst, .scripted hrest⟩

end Connection.FailsLike

namespace Post

variable {view : Event δ → Option (Event δ)} {p q : Post δ}

/-! ## Posts with the same in view -/

/-- Two posts with the same in view, on which the same failures wait, and whose sends fail
alike. -/
structure Twins (view : Event δ → Option (Event δ)) (p q : Post δ) : Prop where
  events : p.events.filterMap view = q.events.filterMap view
  waiting : p.waiting = q.waiting
  connection : p.connection.FailsLike q.connection

/-- Trace lines can be written with either of two setups, and they are out of view; or the setups
are the same. -/
def TracedAlike (view : Event δ → Option (Event δ)) (setup setup' : Trace.Setup) : Prop :=
  setup = setup' ∨
    (∀ line, view (.traced line) = none) ∧ setup.Timely ∧ setup'.Timely

theorem Twins.fresh (h : Twins view p q) : Twins view p.fresh q.fresh :=
  ⟨rfl, h.waiting, h.connection⟩

theorem Twins.mark (h : Twins view p q) (e : Event δ) : Twins view (p.mark e) (q.mark e) := by
  refine ⟨?_, h.waiting, h.connection⟩
  unfold Post.mark
  rw [List.filterMap_append, List.filterMap_append, h.events]

theorem Twins.markTraced (h : Twins view p q) (written : List Trace.Written) :
    Twins view (p.markTraced written) (q.markTraced written) := by
  refine ⟨?_, h.waiting, h.connection⟩
  unfold Post.markTraced
  rw [List.filterMap_append, List.filterMap_append, h.events]

theorem Twins.markTraced_of_hidden (h : Twins view p q)
    (hidden : ∀ line, view (.traced line) = none) (written written' : List Trace.Written) :
    Twins view (p.markTraced written) (q.markTraced written') := by
  have hnone : ∀ lines : List Trace.Written, (lines.map Event.traced).filterMap view = [] := by
    intro lines
    refine List.filterMap_eq_nil_iff.mpr fun e he => ?_
    obtain ⟨line, -, rfl⟩ := List.mem_map.mp he
    exact hidden line
  refine ⟨?_, h.waiting, h.connection⟩
  unfold Post.markTraced
  rw [List.filterMap_append, List.filterMap_append, hnone, hnone, h.events]

theorem Twins.send (h : Twins view p q) (o : Outgoing δ) (failed : Reason → Failure) :
    Twins view (p.send o failed) (q.send o failed) := by
  obtain ⟨hfailure, hconnection⟩ := h.connection.next
  have hmarked : Twins view (if p.connection.marks then p.mark (.sent o) else p)
      (if q.connection.marks then q.mark (.sent o) else q) := by
    rw [h.connection.marks]
    split
    · exact h.mark _
    · exact h
  refine ⟨hmarked.events, ?_, hconnection⟩
  show _ ++ (p.connection.next.1.failure?.map failed).toList =
    _ ++ (q.connection.next.1.failure?.map failed).toList
  rw [hfailure, hmarked.waiting]

theorem Twins.log (h : Twins view p q) (logger : Logger) (level : Level) (message : String) :
    Twins view (p.log logger level message) (q.log logger level message) := by
  unfold Post.log
  cases logger with
  | silent => exact h
  | recorder => exact h.mark _
  | connection label => exact h.send _ _

/-! ## Notifications and failures -/

/-- A notification leaves twins twins. It is raised alike, if its trace line fails. -/
theorem Twins.notify (h : Twins view p q) {setup setup' : Trace.Setup}
    (hs : TracedAlike view setup setup') (n : Notice δ) :
    Twins view (p.notify setup n).1 (q.notify setup' n).1 ∧
      (p.notify setup n).2 = (q.notify setup' n).2 := by
  rcases hs with rfl | ⟨hidden, ht, ht'⟩
  · unfold Post.notify
    simp only
    split
    · exact ⟨h, rfl⟩
    · exact ⟨(h.markTraced _).send _ _, rfl⟩
  · obtain ⟨written, hw⟩ := notify_of_timely ht n p
    obtain ⟨written', hw'⟩ := notify_of_timely ht' n q
    rw [hw, hw']
    exact ⟨(h.markTraced_of_hidden hidden written written').send _ _, rfl⟩

theorem Twins.handle (h : Twins view p q) (logger : Logger) (f : Failure) :
    Twins view (p.handle logger f) (q.handle logger f) := by
  unfold Post.handle
  cases f with
  | notice method reason =>
    simp only
    split
    · exact h.log ..
    · exact h
  | logMessage message reason =>
    simp only
    split
    · exact h.mark _
    · exact h

/-- Both deal with the same failures in the same order, for the same wait on both, and what comes up
on the way fails alike again. -/
theorem Twins.drain (h : Twins view p q) (logger : Logger) :
    Twins view (p.drain logger) (q.drain logger) := by
  fun_induction Post.drain logger p generalizing q with
  | case1 p hw =>
    have hw' : q.waiting = [] := h.waiting.symm.trans hw
    rw [drain_of_nil logger hw']
    exact h
  | case2 p f rest hw ih =>
    have hw' : q.waiting = f :: rest := h.waiting.symm.trans hw
    have hoff : Twins view { p with waiting := rest } { q with waiting := rest } :=
      ⟨h.events, rfl, h.connection⟩
    rw [drain_of_cons logger hw']
    exact ih (hoff.handle logger f)

/-- What is left to happen at the end is the same in view. -/
theorem Twins.remaining (h : Twins view p q) (logger : Logger) :
    (p.remaining logger).filterMap view = (q.remaining logger).filterMap view :=
  (h.fresh.drain logger).events

/-! ## Runs -/

theorem Twins.perform (h : Twins view p q) {setup setup' : Trace.Setup}
    (hs : TracedAlike view setup setup') (logger : Logger) (step : Step δ) :
    Twins view (p.perform setup logger step).1 (q.perform setup' logger step).1 ∧
      (p.perform setup logger step).2 = (q.perform setup' logger step).2 := by
  cases step with
  | notify n => exact h.notify hs n
  | log level message => exact ⟨h.log logger level message, rfl⟩
  | drain => exact ⟨h.drain logger, rfl⟩

theorem Twins.run (h : Twins view p q) {setup setup' : Trace.Setup}
    (hs : TracedAlike view setup setup') (logger : Logger) (steps : List (Step δ)) :
    (p.run setup logger steps).1.map (fun done => (done.1.filterMap view, done.2)) =
        (q.run setup' logger steps).1.map (fun done => (done.1.filterMap view, done.2)) ∧
      Twins view (p.run setup logger steps).2 (q.run setup' logger steps).2 := by
  induction steps generalizing p q with
  | nil => exact ⟨rfl, h⟩
  | cons step rest ih =>
    obtain ⟨hdone, hresult⟩ := h.fresh.perform hs logger step
    obtain ⟨hrest, hlast⟩ := ih hdone
    unfold Post.run
    refine ⟨?_, hlast⟩
    rw [List.map_cons, List.map_cons, hrest, hresult, hdone.events]

end Post

end BuildFeed
