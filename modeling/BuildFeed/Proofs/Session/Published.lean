-- The board against what was published. Publishing is the only thing that makes the board grow, and
-- the client gets the whole list at once, before anybody else can call. So at every moment the
-- board shows of each document what was published of it last.
import BuildFeed.Proofs.Session.Stories

namespace BuildFeed.Session

/-! ## What was published -/

/-- The publication that an occasion is, if it is one. -/
def publication? : Occasion → Option (Publish Diagnostic)
  | .handed _ (.notify (.publish p)) => some p
  | _ => none

@[simp] theorem publication?_publish (n : Nat) (p : Publish Diagnostic) :
    publication? (.handed n (.notify (.publish p))) = some p := rfl

@[simp] theorem publication?_log (n : Nat) (level : Level) (message : String) :
    publication? (.handed n (.log level message)) = none := rfl

@[simp] theorem publication?_began (n : Nat) (call : Call) :
    publication? (.began n call) = none := rfl

@[simp] theorem publication?_askedTime (n : Nat) : publication? (.askedTime n) = none := rfl

@[simp] theorem publication?_toldTime (n : Nat) (t : Number) :
    publication? (.toldTime n t) = none := rfl

@[simp] theorem publication?_cameBack (n : Nat) : publication? (.cameBack n) = none := rfl

@[simp] theorem publication?_returned (n : Nat) : publication? (.returned n) = none := rfl

@[simp] theorem publication?_failed (n : Nat) (e : Fault) :
    publication? (.failed n e) = none := rfl

/-- All that the client was given to publish, the first publication first. -/
def publications (past : List Occasion) : List (Publish Diagnostic) :=
  past.filterMap publication?

/-- The list of the last publication for a URI; before the first one there is nothing in it. -/
def lastFor (uri : String) (ps : List (Publish Diagnostic)) : List Diagnostic :=
  ((ps.filter (fun p => p.document.uri = uri)).getLast?.map Publish.diagnostics).getD []

theorem publications_append (past es : List Occasion) :
    publications (past ++ es) = publications past ++ publications es :=
  List.filterMap_append

theorem publications_of_none {past es : List Occasion} (h : ∀ e ∈ es, publication? e = none) :
    publications (past ++ es) = publications past := by
  have hnone : publications es = [] := List.filterMap_eq_nil_iff.mpr h
  rw [publications_append, hnone, List.append_nil]

/-- A notification of the job's start or finish publishes nothing. -/
theorem publication?_of_announced {notice : Notice Diagnostic} {a : TimeUse × Number}
    (h : announced? notice = some a) (n : Nat) :
    publication? (.handed n (.notify notice)) = none := by
  cases notice with
  | publish p => cases h
  | taskStart p => rfl
  | taskFinish p => rfl

theorem lastFor_append_singleton (uri : String) (ps : List (Publish Diagnostic))
    (p : Publish Diagnostic) :
    lastFor uri (ps ++ [p]) = if p.document.uri = uri then p.diagnostics else lastFor uri ps := by
  unfold lastFor
  rw [List.filter_append]
  by_cases h : p.document.uri = uri
  · simp [h]
  · simp [h]

namespace Course

/-! ## What a step publishes -/

/-- What a call hands over after its line in the log is not a publication. -/
theorem Kept.publication?_of_line {job : Job} {c : Course} (h : Kept job c) {n : Nat} {call : Call}
    {line : String} {notice : Notice Diagnostic} {rest : List OpenCall}
    (ho : c.openCalls = ⟨n, call, .back (.log .info line) [.hand (.notify notice)]⟩ :: rest) :
    publication? (.handed n (.notify notice)) = none := by
  have hw := h.waits _ (ho ▸ List.mem_cons_self)
  generalize story _ c.past = es at hw
  cases hw with
  | line hu hn => exact publication?_of_announced hn n

/-- A step publishes nothing and leaves the board alone, or it makes the board grow and publishes
the whole list of the document. -/
theorem Step.publishes_or_not {job : Job} {setup : Trace.Setup} {c d : Course}
    (hs : Step job setup c d) (h : Kept job c) (ht : setup.Timely) :
    (publications d.past = publications c.past ∧ d.session.board = c.session.board) ∨
      ∃ (call : Call) (doc : Document), call.document? job = some (.ok doc) ∧
        d.session.board = c.session.board.grown doc.uri call.diagnostics ∧
        publications d.past = publications c.past ++
          [publication job doc (c.session.board.get doc.uri ++ call.diagnostics)] := by
  cases hs with
  | refused hu hb => exact .inl ⟨publications_of_none (by simp), (hb ht).1⟩
  | asked hu hup => exact .inl ⟨publications_of_none (by simp), board_letFall ..⟩
  | ignored hu hfallen => exact .inl ⟨publications_of_none (by simp), rfl⟩
  | published hd hp =>
    refine .inr ⟨_, _, hd, rfl, ?_⟩
    rw [publications_append, hp]
    rfl
  | told ho => exact .inl ⟨publications_of_none (by simp), board_told ..⟩
  | announced ho =>
    have hnone := h.publication?_of_line ho
    exact .inl ⟨publications_of_none (by simp [hnone]), rfl⟩
  | returned ho => exact .inl ⟨publications_of_none (by simp), board_countedFor ..⟩
  | failed ho => exact .inl ⟨publications_of_none (by simp), rfl⟩

/-! ## The law -/

theorem Reached.board {job : Job} {c : Course} (h : Reached job Trace.Setup.Timely c) :
    (∀ u, c.session.board.get u = lastFor u (publications c.past)) ∧
      c.session.board.documents = ((publications c.past).map (·.document.uri)).eraseDups := by
  induction h with
  | fresh => exact ⟨fun u => rfl, rfl⟩
  | step hc ht hs ih =>
    obtain ⟨hget, hdocs⟩ := ih
    rcases hs.publishes_or_not hc.kept ht with ⟨hp, hb⟩ | ⟨call, doc, -, hb, hp⟩
    · rw [hp, hb]
      exact ⟨hget, hdocs⟩
    · rw [hp, hb]
      refine ⟨fun u => ?_, ?_⟩
      · rw [Board.get_grown, lastFor_append_singleton, ← hget u]
        by_cases hu : u = doc.uri
        · simp [hu, publication]
        · simp [hu, publication, Ne.symm hu]
      · rw [Board.documents_grown, List.map_append, List.map_singleton,
          eraseDups_append_singleton, hdocs]
        simp [publication]

/-- At every moment of every course, inside calls and outside them, the session answers for each
URI with the list that was published for it last, and for the documents with the URIs that were
published so far, each once, in the order of their first publication. -/
theorem the_board_shows_what_was_published_last (job : Job) {turns : List Turn}
    (ht : ∀ t ∈ turns, t.setup.Timely) :
    let c := after job turns
    (∀ u, c.session.answer job (.diagnostics u) =
        .diagnostics (lastFor u (publications c.past))) ∧
      c.session.answer job .documents =
        .documents ((publications c.past).map (·.document.uri)).eraseDups := by
  intro c
  obtain ⟨hget, hdocs⟩ := (reached_after job ht).board
  exact ⟨fun u => congrArg Answer.diagnostics (hget u), congrArg Answer.documents hdocs⟩

theorem a_visit_within_two_problems_is_published_last :
    let job : Job := { target := ⟨"file:///t"⟩, name := "t", task := { id := "1" } }
    let p : Problem :=
      { severity := .warning, message := "unused", position := { file := some "/a" } }
    let shown (t : Int) : Trace.Setup := { style := { timestamps := true }, clock := .ofInt t }
    let turns : List Turn :=
      [⟨shown 1, .call (.problem .error p)⟩, ⟨shown 2, .call (.ownProblem p)⟩,
        ⟨shown 3, .call (.visit "/b")⟩, ⟨shown 4, .back⟩, ⟨shown 5, .raise (.raised "closed")⟩]
    let c := after job turns
    (publications c.past).map (fun p => (p.document.uri, p.diagnostics.length)) =
        [("file:///a", 1), ("file:///a", 2), ("file:///b", 0)] ∧
      (∀ t ∈ turns, t.setup.Timely) ∧
      (∀ u, c.session.answer job (.diagnostics u) =
        .diagnostics (lastFor u (publications c.past))) ∧
      c.session.answer job .documents =
        .documents ((publications c.past).map (·.document.uri)).eraseDups := by
  intro job p shown turns c
  have ht : ∀ t ∈ turns, t.setup.Timely := by
    show ∀ t ∈ turns, t.setup.style.timestamps = true →
      (Instant.ofClock? t.setup.clock).isSome = true
    decide +kernel
  exact ⟨by decide +kernel, ht, the_board_shows_what_was_published_last job ht⟩

end Course

end BuildFeed.Session
