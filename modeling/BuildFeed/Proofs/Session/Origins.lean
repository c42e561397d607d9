-- Where things come from in a course. Whatever has happened, one step of one turn made it happen, and
-- that step tells what the session knew then. A start or a finish is made up when the clock comes
-- back, long before the client gets it, with the same calls open below it.
import BuildFeed.Proofs.Session.Stories

namespace BuildFeed.Session.Course

variable {job : Job} {ok : Trace.Setup → Prop} {setup : Trace.Setup} {c d : Course} {n : Nat}
  {call : Call} {above below : List OpenCall} {line : String} {notice : Notice Diagnostic}
  {before later es more : List Occasion}

/-! ## The step behind an occasion -/

theorem Step.past_prefix (hs : Step job setup c d) : c.past <+: d.past := by
  cases hs <;> exact List.prefix_append ..

theorem Reached.step_at (h : Reached job ok c) {o : Occasion} (hp : c.past = before ++ o :: later) :
    ∃ (b d : Course) (setup : Trace.Setup) (es more : List Occasion),
      Reached job ok b ∧ ok setup ∧ Step job setup b d ∧
        before = b.past ++ es ∧ d.past = b.past ++ (es ++ o :: more) := by
  induction h generalizing later with
  | fresh => simp at hp
  | @step c d setup hc hok hs ih =>
    obtain ⟨es, hes⟩ := hs.past_prefix
    rw [← hes, List.append_eq_append_iff] at hp
    rcases hp with ⟨as, hbefore, has⟩ | ⟨as, hold, has⟩
    · exact ⟨c, d, setup, as, later, hc, hok, hs, hbefore, has ▸ hes.symm⟩
    · rcases as with _ | ⟨o', as⟩
      · refine ⟨c, d, setup, [], later, hc, hok, hs, ?_, ?_⟩
        · simpa using hold.symm
        · rw [← hes, List.nil_append, ← List.nil_append es, ← has]
      · obtain ⟨rfl, -⟩ := List.cons.inj has
        exact ih hold

/-- Of two things the one that is not the first is the second. -/
theorem second_of_two {α : Type} {x y o : α} {es more : List α} (h : [x, y] = es ++ o :: more)
    (hx : x ≠ o) : es = [x] ∧ y = o := by
  rcases es with _ | ⟨e, _ | ⟨e', es⟩⟩
  · exact absurd (List.cons.inj h).1 hx
  · simp only [List.cons_append, List.nil_append, List.cons.injEq] at h
    exact ⟨by rw [h.1], h.2.1⟩
  · simp at h

/-- Of two things the one that is not the second is the first. -/
theorem first_of_two {α : Type} {x y o : α} {es more : List α} (h : [x, y] = es ++ o :: more)
    (hy : y ≠ o) : es = [] ∧ x = o := by
  rcases es with _ | ⟨e, es⟩
  · exact ⟨rfl, (List.cons.inj h).1⟩
  · rw [List.cons_append, List.cons.injEq] at h
    have hmem : o ∈ es ++ o :: more := by simp
    rw [← h.2, List.mem_singleton] at hmem
    exact absurd hmem.symm hy

/-- The client is notified by a call that begins and publishes, or by one that goes on from its
line. -/
theorem Step.notified (hs : Step job setup c d)
    (hp : d.past = c.past ++ (es ++ .handed n (.notify notice) :: more)) :
    (∃ call doc, es = [.began n call] ∧ call.document? job = some (.ok doc) ∧
        notice = .publish
          (publication job doc (c.session.board.get doc.uri ++ call.diagnostics))) ∨
      ∃ call line below, es = [.cameBack n] ∧
        c.openCalls = ⟨n, call, .back (.log .info line) [.hand (.notify notice)]⟩ :: below := by
  have hnew : ∀ {as}, c.past ++ as = d.past → as = es ++ .handed n (.notify notice) :: more := by
    intro as has
    exact List.append_cancel_left (has.trans hp)
  cases hs with
  | refused | asked | ignored | told | returned | failed =>
    have heq := hnew rfl
    have hmem : Occasion.handed n (.notify notice) ∈ es ++ .handed n (.notify notice) :: more := by
      simp
    simp [← heq] at hmem
  | published hd hpub =>
    obtain ⟨rfl, heq⟩ := second_of_two (hnew rfl) (by simp)
    cases heq
    exact .inl ⟨_, _, rfl, hd, by rw [hpub]⟩
  | announced ho =>
    obtain ⟨rfl, heq⟩ := second_of_two (hnew rfl) (by simp)
    cases heq
    exact .inr ⟨_, _, _, rfl, ho⟩

/-! ## How a start or a finish is made up -/

/-- A call that waits for the time, and is told it, makes up its line and its notification by what
the session knows. -/
structure MadeUp (job : Job) (ok : Trace.Setup → Prop) (b : Course) (use : TimeUse) (t : Number)
    (n : Nat) (call : Call) (below : List OpenCall) (line : String)
    (notice : Notice Diagnostic) : Prop where
  reached : Reached job ok b
  waiting : b.openCalls = ⟨n, call, .time use⟩ :: below
  line : line = b.session.lineFor job use
  notice : notice = b.session.noticeFor job t use

/-- A call that waits in its line waited there before, or it has just been told the time. -/
theorem Step.line_before (hs : Step job setup c d)
    (ho : d.openCalls =
      above ++ ⟨n, call, .back (.log .info line) [.hand (.notify notice)]⟩ :: below) :
    (∃ above, c.openCalls =
        above ++ ⟨n, call, .back (.log .info line) [.hand (.notify notice)]⟩ :: below) ∨
      ∃ use t, c.openCalls = ⟨n, call, .time use⟩ :: below ∧
        line = c.session.lineFor job use ∧ notice = c.session.noticeFor job t use ∧
        d.past = c.past ++ [.toldTime n t, .handed n (.log .info line)] := by
  cases hs with
  | refused hu hb => exact .inl ⟨above, ho⟩
  | asked | ignored | published =>
    rcases above with _ | ⟨x, above⟩
    · simp at ho
    · exact .inl ⟨above, (List.cons.inj ho).2⟩
  | told hc =>
    rcases above with _ | ⟨x, above⟩
    · simp only [List.nil_append, List.cons.injEq, OpenCall.mk.injEq, Awaited.back.injEq,
        Handover.log.injEq, Act.hand.injEq, Handover.notify.injEq, true_and, and_true] at ho
      obtain ⟨⟨rfl, rfl, rfl, rfl⟩, rfl⟩ := ho
      exact .inr ⟨_, _, hc, rfl, rfl, rfl⟩
    · exact .inl ⟨_ :: above, by rw [hc, (List.cons.inj ho).2]; rfl⟩
  | announced hc =>
    rcases above with _ | ⟨x, above⟩
    · simp at ho
    · exact .inl ⟨_ :: above, by rw [hc, (List.cons.inj ho).2]; rfl⟩
  | returned hc => exact .inl ⟨_ :: above, hc.trans (congrArg (List.cons _) ho)⟩
  | failed hc => exact .inl ⟨_ :: above, hc.trans (congrArg (List.cons _) ho)⟩

theorem Reached.madeUp (h : Reached job ok c) (above : List OpenCall)
    (ho : c.openCalls =
      above ++ ⟨n, call, .back (.log .info line) [.hand (.notify notice)]⟩ :: below) :
    ∃ b use t, MadeUp job ok b use t n call below line notice ∧
      b.past ++ [.toldTime n t, .handed n (.log .info line)] <+: c.past := by
  induction h generalizing above with
  | fresh => simp at ho
  | step hc hok hs ih =>
    rcases hs.line_before ho with ⟨above', ho'⟩ | ⟨use, t, hc', hline, hnotice, hp⟩
    · obtain ⟨b, use, t, hmade, hprefix⟩ := ih above' ho'
      exact ⟨b, use, t, hmade, hprefix.trans hs.past_prefix⟩
    · exact ⟨_, use, t, ⟨hc, hc', hline, hnotice⟩, hp ▸ List.prefix_refl _⟩

/-- The client gets a start or a finish as it was made up, when the logger comes back from the
line. -/
theorem Reached.announced_at (h : Reached job ok c) {use : TimeUse} {t : Number}
    (hn : announced? notice = some (use, t))
    (hp : c.past = before ++ .handed n (.notify notice) :: later) :
    ∃ b e call line below, MadeUp job ok b use t n call below line notice ∧
      b.past ++ [.toldTime n t, .handed n (.log .info line)] <+: e.past ∧ Reached job ok e ∧
      e.openCalls = ⟨n, call, .back (.log .info line) [.hand (.notify notice)]⟩ :: below ∧
      before = e.past ++ [.cameBack n] := by
  obtain ⟨e, d, setup, es, more, he, -, hs, rfl, hd⟩ := h.step_at hp
  rcases hs.notified hd with ⟨call, doc, -, -, rfl⟩ | ⟨call, line, below, rfl, ho⟩
  · cases hn
  · obtain ⟨b, use', t', hmade, hprefix⟩ := he.madeUp [] ho
    have hsame := hn
    rw [hmade.notice, announced?_noticeFor] at hsame
    cases hsame
    exact ⟨b, e, call, line, below, hmade, hprefix, he, ho, rfl⟩

/-! ## The turn behind an occasion -/

/-- What happens first when a move is made that fits. -/
inductive Opens : Move → Occasion → Prop
  | call (n : Nat) (call : Call) : Opens (.call call) (.began n call)
  | time (n : Nat) (t : Number) : Opens (.time t) (.toldTime n t)
  | back (n : Nat) : Opens .back (.cameBack n)
  | raise (n : Nat) (e : Fault) : Opens (.raise e) (.failed n e)

/-- Whether something can happen only first in a move. -/
def comesFirst : Occasion → Bool
  | .began _ _ => true
  | .toldTime _ _ => true
  | .cameBack _ => true
  | _ => false

theorem past_proceed (n : Nat) (call : Call) (todo : List Act) (c : Course) :
    ∃ o, (c.proceed n call todo).past = c.past ++ [o] ∧ comesFirst o = false := by
  induction todo generalizing c with
  | nil => exact ⟨.returned n, rfl, rfl⟩
  | cons act rest ih =>
    cases act with
    | hand h => exact ⟨.handed n h, rfl, rfl⟩
    | count s => exact ih { c with session := c.session.counted s }

/-- A move that does not fit changes nothing, and any other brings about something that tells the
move, and then perhaps one thing more. -/
theorem past_move (job : Job) (setup : Trace.Setup) (c : Course) (m : Move) :
    c.move job setup m = c ∨
      ∃ o es, (c.move job setup m).past = c.past ++ o :: es ∧ Opens m o ∧
        ∀ e ∈ es, comesFirst e = false := by
  cases m with
  | call call =>
    right
    cases hr : (c.session.begin job setup call).result with
    | error e =>
      rw [move_call_of_error rfl hr]
      exact ⟨_, _, rfl, .call _ _, by simp [comesFirst]⟩
    | ok plan =>
      cases plan with
      | askTime use =>
        rw [move_call_of_askTime rfl hr]
        exact ⟨_, _, rfl, .call _ _, by simp [comesFirst]⟩
      | acts todo =>
        simp only [move, hr]
        obtain ⟨o, ho, hlast⟩ := past_proceed c.begun call todo (note (.began c.begun call)
          { c with session := (c.session.begin job setup call).state, begun := c.begun + 1 })
        refine ⟨.began c.begun call, [o], ?_, .call _ _, by simpa using hlast⟩
        rw [ho]
        simp [note]
  | time t =>
    rcases ho : c.openCalls with _ | ⟨⟨n, call, use | ⟨h, todo⟩⟩, rest⟩
    · exact .inl (move_of_idle ho (by simp))
    · rw [move_time ho]
      exact .inr ⟨_, _, rfl, .time n t, by simp [comesFirst]⟩
    · exact .inl (move_time_of_back ho t)
  | back =>
    rcases ho : c.openCalls with _ | ⟨⟨n, call, use | ⟨h, todo⟩⟩, rest⟩
    · exact .inl (move_of_idle ho (by simp))
    · exact .inl (move_back_of_time ho)
    · right
      simp only [move, ho]
      obtain ⟨o, ho, hlast⟩ :=
        past_proceed n call todo (note (.cameBack n) { c with openCalls := rest })
      refine ⟨.cameBack n, [o], ?_, .back n, by simpa using hlast⟩
      rw [ho]
      simp [note]
  | raise e =>
    rcases ho : c.openCalls with _ | ⟨o, rest⟩
    · exact .inl (move_of_idle ho (by simp))
    · rw [move_raise ho]
      exact .inr ⟨_, _, rfl, .raise o.number e, by simp⟩

/-- What can happen only first in a move was brought about by a turn that tells it, and nothing had
happened in that turn before. -/
theorem turn_at {turns : List Turn} {o : Occasion} (ho : comesFirst o = true)
    (hp : (after job turns).past = before ++ o :: later) :
    ∃ early t late, turns = early ++ t :: late ∧ Opens t.move o ∧ (after job early).past = before ∧
      ∃ es, ((after job early).move job t.setup t.move).past = before ++ o :: es := by
  induction turns using List.reverseRecOn generalizing later with
  | nil => simp [after] at hp
  | append_singleton turns t ih =>
    rw [after_append_singleton] at hp
    have hold : ∀ {later}, (after job turns).past = before ++ o :: later →
        ∃ early t' late, turns ++ [t] = early ++ t' :: late ∧ Opens t'.move o ∧
          (after job early).past = before ∧
            ∃ es, ((after job early).move job t'.setup t'.move).past = before ++ o :: es := by
      intro later hp
      obtain ⟨early, t', late, rfl, hturn⟩ := ih hp
      exact ⟨early, t', late ++ [t], by simp, hturn⟩
    rcases past_move job t.setup (after job turns) t.move with hsame | ⟨o', es, hnew, hopens, hes⟩
    · rw [hsame] at hp
      exact hold hp
    · -- it happened in an earlier turn, first in this one, or second in this one, which cannot be
      have hsplit : (after job turns).past ++ o' :: es = before ++ o :: later := hnew.symm.trans hp
      rcases List.append_eq_append_iff.mp hsplit with ⟨as, rfl, has⟩ | ⟨as, hpast, has⟩
      · rcases as with _ | ⟨a, as⟩
        · obtain ⟨rfl, rfl⟩ := List.cons.inj has
          exact ⟨turns, t, [], rfl, hopens, by simp, es, by simpa using hnew⟩
        · obtain ⟨-, rfl⟩ := List.cons.inj has
          have hnot := hes o (List.mem_append_right _ List.mem_cons_self)
          rw [ho] at hnot
          cases hnot
      · rcases as with _ | ⟨a, as⟩
        · obtain ⟨rfl, rfl⟩ := List.cons.inj has
          rw [List.append_nil] at hpast
          exact ⟨turns, t, [], rfl, hopens, hpast, _, hpast ▸ hnew⟩
        · obtain ⟨rfl, -⟩ := List.cons.inj has
          exact hold hpast

end BuildFeed.Session.Course
