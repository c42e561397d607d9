-- The tally against the board. A problem goes onto the board under its own severity and is counted under
-- the one that its call names. Where these are the same and the client raises no error at a
-- publication, the two differ only by the calls that are still open.
import BuildFeed.Proofs.Session.Obliging
import BuildFeed.Proofs.Session.Span

namespace BuildFeed

/-- How many diagnostics on a board have a severity that goes by a number, over all documents. -/
def Board.numbered (b : Board Diagnostic) (number : Nat) : Nat :=
  b.all.countP (fun d => d.severity.number = number)

theorem Board.numbered_pos_iff {b : Board Diagnostic} {number : Nat} :
    0 < b.numbered number ↔ ∃ d ∈ b.all, d.severity.number = number := by
  unfold Board.numbered
  rw [List.countP_pos_iff]
  simp only [decide_eq_true_iff]

/-- No two severities go by the same number. -/
theorem Severity.number_eq_iff {r s : Severity} : r.number = s.number ↔ r = s := by
  cases r <;> cases s <;> simp [number]

namespace Session

/-- A problem is counted under its own severity. -/
def Call.CountsOwn : Call → Prop
  | .problem counted p => counted = p.severity
  | _ => True

/-- Where a problem is counted under its own severity, what a call adds to the board under a severity
is what it counts under it. -/
theorem Call.CountsOwn.countP_diagnostics {call : Call} (h : call.CountsOwn) (s : Severity) :
    call.diagnostics.countP (fun d => d.severity.number = s.number) =
      if call.counted? = some s then 1 else 0 := by
  cases call with
  | start | finish | summary | visit => rfl
  | problem counted p =>
    have hown : counted = p.severity := h
    subst hown
    simp [diagnostics, counted?, Diagnostic.ofProblem, Severity.number_eq_iff, List.countP_singleton]
  | ownProblem p =>
    simp [diagnostics, counted?, Diagnostic.ofProblem, Severity.number_eq_iff, List.countP_singleton]

theorem counted?_of_use {call : Call} {use : TimeUse} (hu : call.use? = some use) :
    call.counted? = none := by
  cases call <;> first | rfl | cases hu

namespace Course

variable {job : Job} {c : Course} {n : Nat} {call : Call} {turns : List Turn}

/-! ## What is not counted yet -/

/-- How many open calls are to count under a severity. -/
def uncounted (s : Severity) (os : List OpenCall) : Nat :=
  os.countP (fun o => o.call.counted? = some s)

theorem uncounted_cons (s : Severity) (o : OpenCall) (os : List OpenCall) :
    uncounted s (o :: os) = uncounted s os + if o.call.counted? = some s then 1 else 0 := by
  simp [uncounted, List.countP_cons]

theorem uncounted_eq_zero {s : Severity} {os : List OpenCall}
    (h : ∀ o ∈ os, o.call.counted? = none) : uncounted s os = 0 := by
  unfold uncounted
  rw [List.countP_eq_zero]
  intro o ho
  simp [h o ho]

/-- At every moment there are as many diagnostics of a severity as have been counted under it and as
open calls are to count. -/
theorem Obliged.numbered_eq (h : Obliged job c)
    (hown : ∀ n call, .began n call ∈ c.past → call.CountsOwn) (s : Severity) :
    c.session.board.numbered s.number = c.session.tally.of s + uncounted s c.openCalls := by
  induction h with
  | fresh => cases s <;> rfl
  | @step c d setup hc ht hs hg ih =>
    have hold := ih fun n call hb => hown n call (hs.past_prefix.subset hb)
    cases hs with
    | refused hu hb =>
      rw [(hb ht).1]
      exact hold
    | asked hu hup =>
      rw [uncounted_cons, counted?_of_use hu, if_neg (by simp), board_letFall, tally_letFall]
      exact hold
    | ignored hu hfallen =>
      rw [uncounted_cons, counted?_of_use hu, if_neg (by simp)]
      exact hold
    | @published call doc p hd hp =>
      have hcall : call.CountsOwn := hown c.begun call (by simp)
      rw [uncounted_cons, Board.numbered, Board.countP_all_grown, hcall.countP_diagnostics,
        ← Nat.add_assoc]
      exact congrArg (· + _) hold
    | told ho | announced ho =>
      rw [ho, uncounted_cons] at hold
      simpa [uncounted_cons] using hold
    | returned ho =>
      rw [ho, uncounted_cons] at hold
      rw [board_countedFor, tally_countedFor]
      simp only at hold ⊢
      omega
    | @failed o rest e ho =>
      -- a call that is to count can only wait for the client
      have hnone : o.call.counted? ≠ some s := by
        intro hs
        exact hg (hc.reached.kept.awaitsClient ho (use?_of_counted? hs)) o.number e rfl
      rw [ho, uncounted_cons, if_neg hnone] at hold
      exact hold

/-! ## Where a finish is told the time -/

theorem Waits.use?_of_time {use : TimeUse} {es : List Occasion}
    (hw : Waits job n call (.time use) es) : call.use? = some use := by
  cases hw with
  | time hu => exact hu

theorem countsOwn_of_began (hown : ∀ t ∈ turns, ∀ call, t.move = .call call → call.CountsOwn)
    (hb : .began n call ∈ (after job turns).past) : call.CountsOwn := by
  obtain ⟨before, later, hp⟩ := List.append_of_mem hb
  obtain ⟨early, ⟨setup, move⟩, late, rfl, hopens, -⟩ := turn_at rfl hp
  cases hopens
  exact hown _ (List.mem_append_right _ List.mem_cons_self) call rfl

/-- A call is told the time in a turn in which it is the innermost open call and waits for that. -/
theorem told_in_turn {t : Number} {before later : List Occasion}
    (hp : (after job turns).past = before ++ .toldTime n t :: later) :
    ∃ early setup late call use below, turns = early ++ ⟨setup, .time t⟩ :: late ∧
      (after job early).past = before ∧
      (after job early).openCalls = ⟨n, call, .time use⟩ :: below := by
  obtain ⟨early, ⟨setup, move⟩, late, rfl, hopens, rfl, es, hmove⟩ := turn_at rfl hp
  cases hopens
  have h : Reached job (fun _ => True) (after job early) := reached_after job fun _ _ => trivial
  rcases h.kept.move setup (.time t) with hsame | hs
  · rw [hsame] at hmove
    simp at hmove
  · have hfirst : ((after job early).move job setup (.time t)).past =
        (after job early).past ++ ([] ++ .toldTime n t :: es) := hmove
    obtain ⟨-, call, use, below, ho⟩ := hs.asking_of_told hfirst
    exact ⟨early, setup, late, call, use, below, rfl, rfl, ho⟩

/-- Whoever is told the time and then announces a finish had asked for it as the first finish. -/
theorem Reached.finish_of_told {ok : Trace.Setup → Prop} {b : Course} {use : TimeUse}
    {es : List Occasion} {below : List OpenCall} (hb : Reached job ok b) (hc : Reached job ok c)
    (hp : c.past = b.past ++ es) (ho : b.openCalls = ⟨n, call, .time use⟩ :: below)
    (hf : firstFor .finish c.past = some n) : use = .finish := by
  obtain ⟨hfirst, -⟩ := hb.first_of_asking ho
  have hfirst' : firstFor use c.past = some n := by
    rw [hp, firstFor_append, hfirst, Option.some_or]
  exact hc.use_of_first hfirst' hf

/-- Where no problem is open, what has been counted is what is on the board. -/
theorem tally_of_settled (ht : ∀ t ∈ turns, t.setup.Timely) (hclient : ClientObliges job turns)
    (hown : ∀ t ∈ turns, ∀ call, t.move = .call call → call.CountsOwn)
    (hnone : ∀ o ∈ (after job turns).openCalls, o.call.counted? = none) (s : Severity) :
    (after job turns).session.tally.of s = (after job turns).session.board.numbered s.number := by
  have hcalls : ∀ n call, .began n call ∈ (after job turns).past → call.CountsOwn :=
    fun n call hb => countsOwn_of_began hown hb
  have heq := (obliged_after ht hclient).numbered_eq hcalls s
  rw [uncounted_eq_zero hnone, Nat.add_zero] at heq
  exact heq.symm

/-- A finish that is made up where the tally agrees with a board tells what is on the board. -/
theorem finishNotice_of_agreement {s : Session} {board : Board Diagnostic}
    (h : ∀ r, s.tally.of r = board.numbered r.number) (t : Number) :
    ((finishNotice job s t).status = .error ↔ ∃ d ∈ board.all, d.severity.number = 1) ∧
      (finishNotice job s t).report.errors = (board.numbered 1 : Number) ∧
      (finishNotice job s t).report.warnings = (board.numbered 2 : Number) := by
  have herrors : s.tally.errors = board.numbered 1 := h .error
  have hwarnings : s.tally.warnings = board.numbered 2 := h .warning
  rw [← Board.numbered_pos_iff, ← herrors, ← hwarnings]
  simp [finishNotice, Status.ofErrors, Nat.pos_iff_ne_zero]

/-! ## The law -/

/-- Where each problem is counted under its own severity, trace lines can be written, and the client
raises no error at a publication, the tally agrees with the board at every moment at which no problem
is open: under each severity as many were counted as there are diagnostics with its number. So if the
finish that the client gets does not stand within a problem, its status and its counts tell what was
on the board when the clock came back to it. -/
theorem the_tally_agrees_with_the_board (job : Job) {turns : List Turn}
    (ht : ∀ t ∈ turns, t.setup.Timely) (hclient : ClientObliges job turns)
    (hown : ∀ t ∈ turns, ∀ call, t.move = .call call → call.CountsOwn) :
    let c := after job turns
    ((∀ o ∈ c.openCalls, o.call.counted? = none) →
        c.session.answer job .tally =
          .tally
            { errors := c.session.board.numbered 1
              warnings := c.session.board.numbered 2
              infos := c.session.board.numbered 3 }) ∧
      ∀ n p, .handed n (.notify (.taskFinish p)) ∈ c.past →
        firstFor .finish c.past = some n ∧
          ∃ early setup late call below,
            turns = early ++ ⟨setup, .time p.eventTime⟩ :: late ∧
              (after job early).openCalls = ⟨n, call, .time .finish⟩ :: below ∧
              ((∀ o ∈ below, o.call.counted? = none) →
                let board := (after job early).session.board
                (p.status = .error ↔ ∃ d ∈ board.all, d.severity.number = 1) ∧
                  p.report.errors = (board.numbered 1 : Number) ∧
                  p.report.warnings = (board.numbered 2 : Number)) := by
  intro c
  refine ⟨fun hnone => ?_, fun n p hp => ?_⟩
  · have htally : c.session.tally = ⟨c.session.board.numbered 1, c.session.board.numbered 2,
        c.session.board.numbered 3⟩ := by
      apply Tally.ext_of
      intro s
      rw [tally_of_settled ht hclient hown hnone]
      cases s <;> rfl
    rw [Session.answer, htally]
  · have h : Reached job (fun _ => True) c := reached_after job fun _ _ => trivial
    have hfirst : firstFor .finish c.past = some n := h.firstFor_of_announcement hp rfl
    obtain ⟨before, later, hsplit⟩ := List.append_of_mem hp
    obtain ⟨b, e, middle, hb, -, hbe, rfl, hnotice⟩ := h.finish_made_at hsplit
    have htold : c.past = b.past ++ .toldTime n p.eventTime ::
        (middle ++ .cameBack n :: .handed n (.notify (.taskFinish p)) :: later) := by
      simp [hsplit, hbe]
    obtain ⟨early, setup, late, call, use, below, rfl, hpast, ho⟩ := told_in_turn htold
    have hearly : Reached job (fun _ => True) (after job early) :=
      reached_after job fun _ _ => trivial
    obtain rfl := hearly.finish_of_told h (htold.trans (by rw [hpast])) ho hfirst
    refine ⟨hfirst, early, setup, late, call, below, rfl, ho, fun hnone => ?_⟩
    have hsettled : ∀ o ∈ (after job early).openCalls, o.call.counted? = none := by
      rw [ho, List.forall_mem_cons]
      exact ⟨counted?_of_use (hearly.kept.waits _ (ho ▸ List.mem_cons_self)).use?_of_time, hnone⟩
    have htally : ∀ s, b.session.tally.of s =
        (after job early).session.board.numbered s.number := by
      intro s
      -- what is counted depends on the past alone
      rw [hb.tally, ← hpast, ← hearly.tally]
      exact tally_of_settled (fun t h => ht t (List.mem_append_left _ h)) hclient.of_append
        (fun t h => hown t (List.mem_append_left _ h)) hsettled s
    rw [hnotice]
    exact finishNotice_of_agreement htally p.eventTime

theorem a_finish_within_a_visit_reports_an_error_within_a_warning :
    let job : Job := { target := ⟨"file:///t"⟩, name := "t", task := { id := "1" } }
    let p (severity : Severity) (path : String) : Problem :=
      { severity, message := "", position := { file := some path } }
    let early : List Turn :=
      [⟨{}, .call (.problem .warning (p .warning "/a"))⟩, ⟨{}, .call (.ownProblem (p .error "/b"))⟩,
        ⟨{}, .back⟩, ⟨{}, .back⟩, ⟨{}, .call (.ownProblem (p .error "////"))⟩, ⟨{}, .call .start⟩,
        ⟨{}, .raise (.raised "stopped")⟩, ⟨{}, .call (.visit "/a")⟩, ⟨{}, .call .summary⟩]
    let turns := early ++ ⟨{}, .time 7⟩ :: [⟨{}, .back⟩, ⟨{}, .back⟩, ⟨{}, .back⟩]
    let session := (after job turns).session
    let board := (after job early).session.board
    let finish : TaskFinish :=
      { task := { id := "1" }
        eventTime := 7
        status := .error
        message := "Compiled t"
        report := { target := ⟨"file:///t"⟩, errors := 1, warnings := 1 } }
    session.answer job .tally =
        .tally
          { errors := session.board.numbered 1
            warnings := session.board.numbered 2
            infos := session.board.numbered 3 } ∧
      .handed 5 (.notify (.taskFinish finish)) ∈ (after job turns).past ∧
      (∃ d ∈ board.all, d.severity.number = 1) ∧
      finish.report.errors = (board.numbered 1 : Number) ∧
      finish.report.warnings = (board.numbered 2 : Number) := by
  intro job p early turns session board finish
  have ht : ∀ t ∈ turns, t.setup.Timely := by
    show ∀ t ∈ turns, t.setup.style.timestamps = true →
      (Instant.ofClock? t.setup.clock).isSome = true
    decide +kernel
  have hclient : ClientObliges job turns := by decide +kernel
  have hown : ∀ t ∈ turns, ∀ call, t.move = .call call → call.CountsOwn := by
    simp [turns, early, p, Call.CountsOwn]
  obtain ⟨hsettled, hfinish⟩ := the_tally_agrees_with_the_board job ht hclient hown
  have hp : .handed 5 (.notify (.taskFinish finish)) ∈ (after job turns).past := by decide +kernel
  obtain ⟨-, before, setup, late, call, below, hturns, ho, hboard⟩ := hfinish 5 finish hp
  -- there is one turn only that tells the time
  have hlength : before.length = early.length := by
    have hone : ∀ k < turns.length, turns[k]?.map (·.move) = some (.time 7) → k = early.length := by
      decide +kernel
    apply hone
    · simp [hturns]
    · simp [hturns, finish]
  obtain rfl : before = early := (List.append_inj hturns hlength.symm).1.symm
  have hbelow : ∀ o ∈ (after job early).openCalls.tail, o.call.counted? = none := by
    decide +kernel
  rw [ho] at hbelow
  obtain ⟨hstatus, herrors, hwarnings⟩ := hboard hbelow
  exact ⟨hsettled (by decide +kernel), hp, hstatus.mp rfl, herrors, hwarnings⟩

end Course

end Session

end BuildFeed
