-- The other end of a connection that loses sends. Each publication says all that was said of its
-- document, so what is lost is only ever late: the other end shows the beginning of what the
-- session knows of a document, and the whole of it as soon as a publication arrives.
import BuildFeed.Delivery.Correspondence
import BuildFeed.Proofs.Delivery.Sends
import BuildFeed.Proofs.Session.Chains

namespace BuildFeed

open Session (Course Occasion OpenCall Grows grows_append_singleton lastFor
  lastFor_append_singleton publications)

/-! ## What the other end shows -/

variable {u : String} {ds : List Diagnostic} {deliveries : List (Outgoing Diagnostic × Bool)}

/-- All publications that go out, the first one first. -/
def Outgoing.publications (os : List (Outgoing Diagnostic)) : List (Publish Diagnostic) :=
  os.filterMap Outgoing.publication?

theorem Outgoing.publications_append (os ps : List (Outgoing Diagnostic)) :
    Outgoing.publications (os ++ ps) = Outgoing.publications os ++ Outgoing.publications ps :=
  List.filterMap_append

theorem OnlyMessages.publications {os : List (Outgoing Diagnostic)} (h : OnlyMessages os) :
    Outgoing.publications os = [] := by
  refine List.filterMap_eq_nil_iff.mpr fun o ho => ?_
  obtain ⟨type, message, rfl⟩ := h o ho
  rfl

theorem eq_of_publication? {o : Outgoing Diagnostic} {p : Publish Diagnostic}
    (h : o.publication? = some p) : o = .notice (.publish p) := by
  rcases o with (q | q | q) | _
  · rw [Option.some.inj h]
  all_goals cases h

theorem lastArrival?_append_singleton (u : String) (deliveries : List (Outgoing Diagnostic × Bool))
    (d : Outgoing Diagnostic × Bool) :
    lastArrival? u (deliveries ++ [d]) = (arrivalFor? u d).or (lastArrival? u deliveries) := by
  unfold lastArrival?
  rw [List.filterMap_append, List.getLast?_append]
  cases h : arrivalFor? u d with
  | none => simp [h]
  | some accepted => simp [h]

theorem shownAfter_append_singleton (deliveries : List (Outgoing Diagnostic × Bool))
    (d : Outgoing Diagnostic × Bool) :
    Board.shownAfter (deliveries ++ [d]) = (Board.shownAfter deliveries).receive d :=
  List.foldl_append

theorem get_receive_of_none {d : Outgoing Diagnostic × Bool} (hd : arrivalFor? u d = none)
    (b : Board Diagnostic) : (b.receive d).get u = b.get u := by
  obtain ⟨(p | p | p) | ⟨type, message⟩, accepted⟩ := d
  · have hu : u ≠ p.document.uri := by
      rintro rfl
      simp [arrivalFor?] at hd
    cases accepted with
    | false => rfl
    | true => rw [Board.receive, Board.get_put, if_neg hu]
  all_goals rfl

/-- The other end shows the beginning of a list for a URI, and all of it if the last publication for
the URI arrived. -/
def Shows (deliveries : List (Outgoing Diagnostic × Bool)) (u : String) (ds : List Diagnostic) :
    Prop :=
  (Board.shownAfter deliveries).get u <+: ds ∧
    (lastArrival? u deliveries = some true → (Board.shownAfter deliveries).get u = ds)

/-- A publication that says all that was said before is what the other end is to show from now on.
If it is lost, the other end still shows the beginning of it. -/
theorem Shows.publish {p : Publish Diagnostic} (h : Shows deliveries p.document.uri ds)
    (hp : ds <+: p.diagnostics) (accepted : Bool) :
    Shows (deliveries ++ [(.notice (.publish p), accepted)]) p.document.uri p.diagnostics := by
  unfold Shows
  rw [shownAfter_append_singleton, lastArrival?_append_singleton]
  cases accepted with
  | true => simp [Board.receive, Board.get_put]
  | false =>
    refine ⟨h.1.trans hp, fun harrived => ?_⟩
    simp [arrivalFor?] at harrived

theorem Shows.other (h : Shows deliveries u ds) {d : Outgoing Diagnostic × Bool}
    (hd : arrivalFor? u d = none) : Shows (deliveries ++ [d]) u ds := by
  unfold Shows
  rw [shownAfter_append_singleton, lastArrival?_append_singleton, get_receive_of_none hd, hd]
  exact h

/-- Where the lists that go out only grow, the other end shows the last one as far as it got it. -/
theorem shows_of_grows (h : Grows (Outgoing.publications (deliveries.map Prod.fst))) (u : String) :
    Shows deliveries u (lastFor u (Outgoing.publications (deliveries.map Prod.fst))) := by
  induction deliveries using List.reverseRecOn with
  | nil => exact ⟨List.prefix_refl _, fun harrived => by cases harrived⟩
  | append_singleton before d ih =>
    obtain ⟨o, accepted⟩ := d
    rw [List.map_append, Outgoing.publications_append] at h ⊢
    cases hpub : o.publication? with
    | none =>
      -- nothing is published, so neither end changes
      have hnone : Outgoing.publications (List.map Prod.fst [(o, accepted)]) = [] := by
        simp [Outgoing.publications, hpub]
      rw [hnone, List.append_nil] at h ⊢
      refine (ih h).other ?_
      rcases o with (p | p | p) | _ <;> first | rfl | cases hpub
    | some p =>
      obtain rfl := eq_of_publication? hpub
      obtain ⟨hold, hp⟩ := grows_append_singleton.mp h
      have hlast : lastFor u (Outgoing.publications (before.map Prod.fst) ++ [p]) = _ :=
        lastFor_append_singleton u _ p
      rw [show Outgoing.publications (List.map Prod.fst [(_, accepted)]) = [p] from rfl, hlast]
      by_cases hu : p.document.uri = u
      · subst hu
        rw [if_pos rfl]
        exact (ih hold).publish hp accepted
      · rw [if_neg hu]
        exact (ih hold).other (if_neg hu)

/-- Where all that was published has been sent, the other end shows what the session shows as far as
it got it. -/
theorem Session.Course.Reached.shows {job : Job} {c : Course}
    (h : Course.Reached job Trace.Setup.Timely c) (connection : Connection)
    {sends : List (Outgoing Diagnostic)}
    (hp : Outgoing.publications sends = publications c.past) (u : String) :
    Shows (connection.delivers sends) u (c.session.board.get u) := by
  have hfst := connection.map_fst_delivers sends
  have hgrows : Grows (Outgoing.publications ((connection.delivers sends).map Prod.fst)) := by
    rw [hfst, hp]
    exact h.grows
  have hshows := shows_of_grows hgrows u
  rwa [hfst, hp, ← h.board.1 u] at hshows

/-! ## A client that never keeps anybody waiting -/

namespace Session.Course

variable {job : Job} {setup : Trace.Setup} {c d : Course}

/-- The client has come back from all that it was handed: no open call waits for it. -/
def ClientIdle (openCalls : List OpenCall) : Prop :=
  ∀ o ∈ openCalls, ∀ notice rest, o.awaited ≠ .back (.notify notice) rest

theorem ClientIdle.cons {o : OpenCall} {rest : List OpenCall} (h : ClientIdle rest)
    (ho : ∀ notice todo, o.awaited ≠ .back (.notify notice) todo) : ClientIdle (o :: rest) := by
  intro x hx
  rcases List.mem_cons.mp hx with rfl | hx
  · exact ho
  · exact h x hx

theorem ClientIdle.tail {o : OpenCall} {rest : List OpenCall} (h : ClientIdle (o :: rest)) :
    ClientIdle rest :=
  fun x hx => h x (List.mem_cons_of_mem o hx)

/-- Where the client was idle, it still is after a step, and nothing was published; or the innermost
open call has just handed it something, and has nothing more to do then but to count. -/
theorem Step.client (hs : Step job setup c d) (hc : ClientIdle c.openCalls) :
    (ClientIdle d.openCalls ∧ publications d.past = publications c.past) ∨
      ∃ n call notice rest,
        d.openCalls = ⟨n, call, .back (.notify notice) call.countings⟩ :: rest ∧
          ClientIdle rest ∧
          publications d.past = publications c.past ++ Outgoing.publications [.notice notice] := by
  cases hs with
  | refused => exact .inl ⟨hc, publications_of_none (by simp)⟩
  | asked | ignored => exact .inl ⟨hc.cons (by simp), publications_of_none (by simp)⟩
  | published =>
    exact .inr ⟨_, _, _, _, rfl, hc, publications_append ..⟩
  | told ho =>
    rw [ho] at hc
    exact .inl ⟨hc.tail.cons (by simp), publications_of_none (by simp)⟩
  | @announced n call line notice rest ho =>
    rw [ho] at hc
    refine .inr ⟨_, _, _, _, rfl, hc.tail, ?_⟩
    rw [publications_append]
    cases notice <;> rfl
  | returned ho | failed ho =>
    rw [ho] at hc
    exact .inl ⟨hc.tail, publications_of_none (by simp)⟩

end Session.Course

namespace Correspondence

variable {job : Job} {connection : Connection} {l : Correspondence} {setup : Trace.Setup}
  {c : Course} {p : Post Diagnostic}

/-- The course has come as far as the post: nobody waits for the client, and what went out over the
connection is what was published. -/
structure InOrder (job : Job) (connection : Connection) (l : Correspondence) : Prop where
  reached : Course.Reached job Trace.Setup.Timely l.course
  idle : Course.ClientIdle l.course.openCalls
  connection : l.post.connection = connection.after (Event.sends l.post.events)
  published : Outgoing.publications (Event.sends l.post.events) = publications l.course.past

theorem inOrder_fresh (job : Job) (connection : Connection) :
    InOrder job connection { post := { connection } } where
  reached := .fresh
  idle := fun o ho => by cases ho
  connection := rfl
  published := rfl

theorem InOrder.marks (h : InOrder job connection l) (hm : connection.marks = true) :
    l.post.connection.marks = true := by
  rw [h.connection, Connection.marks_after, hm]

/-- The course goes on, and just what it publishes is sent. -/
theorem InOrder.append (h : InOrder job connection l) {q : Post Diagnostic}
    {os : List (Outgoing Diagnostic)} (hc : Course.Reached job Trace.Setup.Timely c)
    (hidle : Course.ClientIdle c.openCalls) (hq : Post.Sent l.post os q)
    (hp : publications c.past = publications l.course.past ++ Outgoing.publications os) :
    InOrder job connection { course := c, post := q } where
  reached := hc
  idle := hidle
  connection := by rw [hq.connection, h.connection, ← Connection.after_append, hq.events]
  published := by rw [hq.events, Outgoing.publications_append, h.published, hp]

/-- Only messages are sent, and the course stays where it is. -/
theorem InOrder.post (h : InOrder job connection l) {q : Post Diagnostic}
    {os : List (Outgoing Diagnostic)} (hq : Post.Sent l.post os q) (hos : OnlyMessages os) :
    InOrder job connection { l with post := q } := by
  refine h.append h.reached h.idle hq ?_
  rw [hos.publications, List.append_nil]

theorem answered_of_idle (hidle : Course.ClientIdle c.openCalls) :
    answered job setup { course := c, post := p } = { course := c, post := p } := by
  unfold answered
  split
  · rename_i ho
    exact absurd rfl (hidle _ (ho ▸ List.mem_cons_self) _ _)
  · rfl

theorem answered_of_notice {n : Nat} {call : Session.Call} {notice : Notice Diagnostic}
    {rest : List OpenCall} {q : Post Diagnostic}
    (ho : c.openCalls = ⟨n, call, .back (.notify notice) call.countings⟩ :: rest)
    (hq : p.notify setup notice = (q, .ok ())) :
    answered job setup { course := c, post := p } =
      { course :=
          { session := c.session.countedFor call
            openCalls := rest
            begun := c.begun
            past := c.past ++ [.cameBack n, .returned n] }
        post := q } := by
  unfold answered
  rw [ho]
  simp only [hq]
  rw [Course.move_back_of_countings ho]

/-- The client sends what it has just been handed, and the course goes on without waiting. -/
theorem InOrder.course (h : InOrder job connection l) (hm : connection.marks = true)
    (ht : setup.Timely) (m : Session.Move) :
    InOrder job connection (l.move job (.course setup m)) := by
  show InOrder job connection (answered job setup { l with course := l.course.move job setup m })
  have hmoved := h.reached.move ht m
  rcases h.reached.kept.move setup m with hsame | hs
  · rw [hsame, answered_of_idle h.idle]
    exact h
  -- the client answers within the move, so the calls that were open before wait for others only
  rcases hs.client h.idle with ⟨hidle, hp⟩ | ⟨n, call, notice, rest, ho, hidle, hp⟩
  · rw [answered_of_idle hidle]
    exact h.append hmoved hidle (.refl l.post) (hp.trans (List.append_nil _).symm)
  · obtain ⟨q, hq, hsent⟩ := Post.sent_notify (h.marks hm) ht notice
    have hback := hmoved.move ht .back
    rw [Course.move_back_of_countings ho] at hback
    rw [answered_of_notice ho hq]
    refine h.append hback hidle hsent ?_
    rw [Session.publications_of_none (by simp), hp]

theorem InOrder.move (h : InOrder job connection l) (hm : connection.marks = true) {m : Move}
    (ht : m.Timely) : InOrder job connection (l.move job m) := by
  cases m with
  | course setup m => exact h.course hm ht m
  | log logger level message =>
    obtain ⟨os, hsent, hos⟩ := Post.sent_log (h.marks hm) logger level message
    exact h.post hsent hos
  | deal logger =>
    rcases hw : l.post.waiting with _ | ⟨f, rest⟩
    · simpa only [Correspondence.move, hw] using h
    · have hmarks : ({ l.post with waiting := rest } : Post Diagnostic).connection.marks = true :=
        h.marks hm
      obtain ⟨os, hsent, hos⟩ := Post.sent_handle hmarks logger f
      simp only [Correspondence.move, hw]
      exact h.post ⟨hsent.events, hsent.connection⟩ hos

theorem inOrder_run (job : Job) {connection : Connection} (hm : connection.marks = true)
    {moves : List Move} (ht : ∀ m ∈ moves, m.Timely) :
    InOrder job connection (run job connection moves) := by
  induction moves using List.reverseRecOn with
  | nil => exact inOrder_fresh job connection
  | append_singleton moves m ih =>
    rw [run_append_singleton]
    have hlast := ht m (List.mem_append_right _ List.mem_cons_self)
    exact (ih fun m' hm' => ht m' (List.mem_append_left _ hm')).move hm hlast

/-! ## The law -/

/-- Whatever becomes of the sends, at every moment the other end shows of each document the
beginning of what the session knows of it, and the whole of it if the last publication for it was
accepted. -/
theorem the_next_publication_repairs_what_was_lost (job : Job) (outcomes : List Outcome)
    {moves : List Move} (ht : ∀ m ∈ moves, m.Timely) :
    let l := run job (.scripted outcomes) moves
    let sends := Event.sends l.post.events
    let deliveries := (Connection.scripted outcomes).delivers sends
    l.post.connection = (Connection.scripted outcomes).after sends ∧
      Outgoing.publications sends = publications l.course.past ∧
      ∀ u, ∃ ds, l.course.session.answer job (.diagnostics u) = .diagnostics ds ∧
        (Board.shownAfter deliveries).get u <+: ds ∧
        (lastArrival? u deliveries = some true → (Board.shownAfter deliveries).get u = ds) := by
  intro l sends deliveries
  have h : InOrder job (.scripted outcomes) l := inOrder_run job rfl ht
  exact ⟨h.connection, h.published, fun u =>
    ⟨l.course.session.board.get u, rfl, h.reached.shows _ h.published u⟩⟩

theorem a_lost_publication_is_repaired_by_a_visit :
    let job : Job := { target := ⟨"file:///t"⟩, name := "t", task := { id := "1" } }
    let p : Problem :=
      { severity := .warning, message := "unused", position := { file := some "/a" } }
    let shown : Trace.Setup := { style := { timestamps := true }, clock := .ofInt 3 }
    let logger : Logger := .connection "[job]"
    let outcomes : List Outcome :=
      [.accepted, .thrown (.plain "full"), .rejected (.plain "closed"), .accepted]
    let moves : List Move :=
      [.course shown (.call .start), .course shown (.call (.problem .error p)),
        .course shown (.time (.ofInt 5)), .log logger .info "started",
        .course shown (.call (.ownProblem p)), .deal logger, .deal logger,
        .course shown (.raise (.raised "closed")), .course shown (.call (.visit "/a"))]
    let lengths (moves : List Move) :=
      let l := run job (.scripted outcomes) moves
      let deliveries := (Connection.scripted outcomes).delivers (Event.sends l.post.events)
      ((l.course.session.board.get "file:///a").length,
        ((Board.shownAfter deliveries).get "file:///a").length,
        lastArrival? "file:///a" deliveries)
    lengths (moves.take 5) = (2, 1, some false) ∧ lengths moves = (2, 2, some true) ∧
      (∀ m ∈ moves, m.Timely) ∧
      let l := run job (.scripted outcomes) moves
      let sends := Event.sends l.post.events
      let deliveries := (Connection.scripted outcomes).delivers sends
      l.post.connection = (Connection.scripted outcomes).after sends ∧
      Outgoing.publications sends = publications l.course.past ∧
      ∀ u, ∃ ds, l.course.session.answer job (.diagnostics u) = .diagnostics ds ∧
        (Board.shownAfter deliveries).get u <+: ds ∧
        (lastArrival? u deliveries = some true → (Board.shownAfter deliveries).get u = ds) := by
  intro job p shown logger outcomes moves lengths
  have ht : ∀ m ∈ moves, m.Timely := by decide +kernel
  exact ⟨by decide +kernel, by decide +kernel, ht,
    the_next_publication_repairs_what_was_lost job outcomes ht⟩

end Correspondence

end BuildFeed
