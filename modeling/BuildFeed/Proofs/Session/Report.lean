-- What a finish reports. It reads the counts and the time of the start when the clock comes back to
-- it, so that moment decides what is in the report and whether the task ended well.
import BuildFeed.Proofs.Session.Counts
import BuildFeed.Proofs.Session.Milestones
import BuildFeed.Proofs.Session.Origins

namespace BuildFeed.Session.Course

variable {job : Job} {ok : Trace.Setup → Prop} {c : Course} {n : Nat} {before later : List Occasion}

/-! ## When the job started -/

theorem Kept.began_unique (h : Kept job c) {a b : Call} (ha : .began n a ∈ c.past)
    (hb : .began n b ∈ c.past) : a = b := by
  have hmem : Occasion.began n a ∈ story n c.past := mem_story.mpr ⟨ha, rfl⟩
  rcases h.open_or_ended hb with ⟨-, w, hw⟩ | ⟨-, he⟩
  · exact (hw.began_iff a).mp hmem
  · exact (he.began_iff a).mp hmem

/-- The first call for a start, or for a finish, has been told a time. -/
def ToldFirst (use : TimeUse) (t : Number) (past : List Occasion) : Prop :=
  ∃ n, firstFor use past = some n ∧ .toldTime n t ∈ past

/-- Where nobody is told the time, and only calls with new numbers begin, the first call has been
told what it had been told before. -/
theorem toldFirst_append {use : TimeUse} {t : Number} {past es : List Occasion} {begun : Nat}
    (hpast : ∀ o ∈ past, o.number < begun)
    (hes : ∀ e ∈ es, (∀ n t, e ≠ .toldTime n t) ∧ ∀ n call, e = .began n call → n = begun) :
    ToldFirst use t (past ++ es) ↔ ToldFirst use t past := by
  have hold : ∀ n, .toldTime n t ∈ past ++ es ↔ .toldTime n t ∈ past := by
    intro n
    rw [List.mem_append, or_iff_left]
    exact fun hm => (hes _ hm).1 n t rfl
  unfold ToldFirst
  constructor
  · rintro ⟨n, hf, ht⟩
    rw [hold] at ht
    rw [firstFor_append] at hf
    cases hfirst : firstFor use past with
    | some k =>
      rw [hfirst, Option.some_or] at hf
      exact ⟨n, hf, ht⟩
    | none =>
      -- then the first call is new, and has not been told anything
      rw [hfirst, Option.none_or] at hf
      obtain ⟨call, hb, -⟩ := began_of_firstFor hf
      exact absurd ((hes _ hb).2 n call rfl) (Nat.ne_of_lt (hpast _ ht))
  · rintro ⟨n, hf, ht⟩
    exact ⟨n, by rw [firstFor_append, hf, Option.some_or], (hold n).mpr ht⟩

/-- No call is the first for a start and for a finish. -/
theorem Reached.use_of_first (h : Reached job ok c) {use k : TimeUse}
    (hu : firstFor use c.past = some n) (hk : firstFor k c.past = some n) : use = k := by
  obtain ⟨call, hb, hcall⟩ := began_of_firstFor hu
  obtain ⟨other, hb', hother⟩ := began_of_firstFor hk
  rw [h.kept.began_unique hb hb', hother] at hcall
  exact (Option.some.inj hcall).symm

/-- A call that is about to be told the time is the first for its use, and it has not been told
any. -/
theorem Reached.first_of_asking (h : Reached job ok c) {call : Call} {use : TimeUse}
    {rest : List OpenCall} (ho : c.openCalls = ⟨n, call, .time use⟩ :: rest) :
    firstFor use c.past = some n ∧ ∀ t, .toldTime n t ∉ c.past := by
  have hw := h.kept.waits _ (ho ▸ List.mem_cons_self)
  have hb := h.kept.began_of_open (ho ▸ List.mem_cons_self)
  simp only at hw hb
  generalize hstory : story n c.past = es at hw
  cases hw with
  | time hu =>
    refine ⟨(h.firsts.asked n call use hb hu).mp ?_, fun t ht => ?_⟩
    · exact (mem_story.mp (hstory ▸ by simp : Occasion.askedTime n ∈ story n c.past)).1
    · have hmem : Occasion.toldTime n t ∈ story n c.past := mem_story.mpr ⟨ht, rfl⟩
      simp [hstory] at hmem

/-- The session knows when the job started as soon as the first start has been told the time,
whatever becomes of that start later. -/
theorem Reached.startedAt (h : Reached job ok c) (s : Number) :
    c.session.startedAt = some s ↔ ToldFirst .start s c.past := by
  induction h with
  | fresh => simp [ToldFirst, firstFor]
  | @step c d setup hc hok hs ih =>
    have hlt := hc.kept.past_lt
    cases hs with
    | refused | ignored | published | announced | failed =>
      rw [toldFirst_append hlt (by simp)]
      exact ih
    | @asked call use hu hup =>
      rw [toldFirst_append hlt (by simp), ← ih]
      cases use <;> rfl
    | @returned n call handover rest ho =>
      rw [toldFirst_append hlt (by simp), ← ih]
      obtain ⟨tally, htally⟩ : ∃ tally, c.session.countedFor call = { c.session with tally } := by
        unfold countedFor
        split <;> exact ⟨_, rfl⟩
      rw [htally]
    | @told n call use rest t ho =>
      obtain ⟨hfirst, hnot⟩ := hc.first_of_asking ho
      have htold : ∀ k, .toldTime k s ∈ c.past ++
          [.toldTime n t, .handed n (.log .info (c.session.lineFor job use))] ↔
            .toldTime k s ∈ c.past ∨ k = n ∧ s = t := by simp
      have hsame : ∀ k, firstFor k (c.past ++
          [.toldTime n t, .handed n (.log .info (c.session.lineFor job use))]) =
            firstFor k c.past := by
        intro k
        rw [firstFor_append]
        exact Option.or_none
      simp only [ToldFirst, hsame, htold]
      cases use with
      | start =>
        simp only [Session.told, hfirst, Option.some.injEq, exists_eq_left', hnot, false_or,
          true_and]
        exact eq_comm
      | finish =>
        have hother : firstFor .start c.past ≠ some n := fun h =>
          absurd (hc.use_of_first h hfirst) (by simp)
        rw [show (c.session.told job .finish t).1 = c.session from rfl, ih]
        constructor
        · rintro ⟨k, hk, ht⟩
          exact ⟨k, hk, .inl ht⟩
        · rintro ⟨k, hk, ht | ⟨rfl, -⟩⟩
          · exact ⟨k, hk, ht⟩
          · exact absurd hk hother

/-! ## What a finish tells -/

/-- In every course, a finish that the client gets is the first one, and it tells what there was
when the clock came back to it: how many calls had been counted, the status by that, and the time since
the start if the first start had been told the time by then. Its line in the log tells the same
counts. -/
theorem a_finish_reports_what_there_was_when_the_clock_came_back (job : Job) (turns : List Turn)
    {n : Nat} {p : TaskFinish} (hp : .handed n (.notify (.taskFinish p)) ∈ (after job turns).past) :
    let past := (after job turns).past
    ∃ early t middle later errors warnings time,
      firstFor .finish past = some n ∧
        past = early ++ .toldTime n t ::
          .handed n (.log .info ("[task] " ++ job.task.id ++ " finished target=" ++ job.name ++
            " errors=" ++ toString errors ++ " warnings=" ++ toString warnings)) ::
          (middle ++ .handed n (.notify (.taskFinish p)) :: later) ∧
        errors = returnedUnder .error early ∧ warnings = returnedUnder .warning early ∧
        p = { task := job.task
              eventTime := t
              status := if 0 < errors then .error else .ok
              message := "Compiled " ++ job.name
              report := { target := job.target, errors, warnings, originId := job.originId, time } } ∧
        (p.status.number = if 0 < errors then 2 else 1) ∧
        ∀ d, time = some d ↔ ∃ s, ToldFirst .start s early ∧ d = t - s := by
  intro past
  have h : Reached job (fun _ => True) (after job turns) := reached_after job fun _ _ => trivial
  obtain ⟨before, later, hsplit⟩ := List.append_of_mem hp
  have htime : announced? (.taskFinish p) = some (.finish, p.eventTime) := rfl
  obtain ⟨b, e, call, line, below, hmade, ⟨middle, hmiddle⟩, -, -, rfl⟩ :=
    h.announced_at htime hsplit
  have hb := hmade.reached
  have herrors : b.session.tally.errors = returnedUnder .error b.past := hb.tally .error
  have hwarnings : b.session.tally.warnings = returnedUnder .warning b.past := hb.tally .warning
  have hnotice : p = finishNotice job b.session p.eventTime := by
    simpa [noticeFor] using hmade.notice
  refine ⟨b.past, p.eventTime, middle ++ [.cameBack n], later, b.session.tally.errors,
    b.session.tally.warnings, b.session.startedAt.map (p.eventTime - ·),
    h.firstFor_of_announcement hp rfl, ?_, herrors, hwarnings, hnotice, ?_, fun d => ?_⟩
  · refine hsplit.trans ?_
    rw [← hmiddle, hmade.line]
    simp only [List.append_assoc, List.cons_append, List.nil_append]
    rfl
  · rw [hnotice]
    simp only [finishNotice, Status.ofErrors]
    split
    · rfl
    · rfl
  · rw [Option.map_eq_some_iff]
    simp only [hb.startedAt, eq_comm]

theorem a_problem_within_the_line_is_not_in_the_report :
    let job : Job :=
      { target := ⟨"file:///t"⟩, name := "t", task := { id := "1" }, originId := some "" }
    let p : Problem :=
      { severity := .error, message := "undefined", position := { file := some "/a" } }
    let turns : List Turn :=
      [⟨{}, .call .start⟩, ⟨{}, .time 5⟩, ⟨{}, .raise (.raised "closed")⟩, ⟨{}, .call .summary⟩,
        ⟨{}, .call (.ownProblem p)⟩, ⟨{}, .back⟩, ⟨{}, .time 12⟩, ⟨{}, .call (.problem .error p)⟩,
        ⟨{}, .back⟩, ⟨{}, .back⟩]
    let past := (after job turns).past
    let finish : TaskFinish :=
      { task := { id := "1" }
        eventTime := 12
        status := .error
        message := "Compiled t"
        report :=
          { target := ⟨"file:///t"⟩, errors := 1, warnings := 0, originId := some "",
            time := some 7 } }
    .handed 1 (.notify (.taskFinish finish)) ∈ past ∧
      ∃ early t middle later errors warnings time,
        firstFor .finish past = some 1 ∧
          past = early ++ .toldTime 1 t ::
            .handed 1 (.log .info ("[task] " ++ job.task.id ++ " finished target=" ++ job.name ++
              " errors=" ++ toString errors ++ " warnings=" ++ toString warnings)) ::
            (middle ++ .handed 1 (.notify (.taskFinish finish)) :: later) ∧
          errors = returnedUnder .error early ∧ warnings = returnedUnder .warning early ∧
          finish =
            { task := job.task
              eventTime := t
              status := if 0 < errors then .error else .ok
              message := "Compiled " ++ job.name
              report :=
                { target := job.target, errors, warnings, originId := job.originId, time } } ∧
          (finish.status.number = if 0 < errors then 2 else 1) ∧
          ∀ d, time = some d ↔ ∃ s, ToldFirst .start s early ∧ d = t - s := by
  intro job p turns past finish
  have hp : .handed 1 (.notify (.taskFinish finish)) ∈ past := by decide +kernel
  exact ⟨hp, a_finish_reports_what_there_was_when_the_clock_came_back job turns hp⟩

/-! ## When a task ends well -/

/-- Where an error has returned it has been counted, so a task that is finished then ends badly. -/
theorem Reached.status_of_returned (h : Reached job ok c) {call : Call}
    (hb : .began n call ∈ c.past) (hc : call.counted? = some .error)
    (hr : hasReturned (story n c.past) = true) (t : Number) :
    (finishNotice job c.session t).status = .error := by
  have hpos : 0 < returnedUnder .error c.past :=
    List.countP_pos_iff.mpr ⟨(n, call), mem_calls.mpr hb, by simp [hc, hr]⟩
  have herrors : c.session.tally.errors = returnedUnder .error c.past := h.tally .error
  rw [← herrors] at hpos
  exact if_pos hpos

theorem Ended.failed_of_not_returned {call : Call} {es : List Occasion} (he : Ended job n call es)
    (hr : hasReturned es = false) : ∃ e, .failed n e ∈ es := by
  cases he with
  | returned hw => simp [hasReturned] at hr
  | failed hw => exact ⟨_, List.mem_append_right _ List.mem_cons_self⟩
  | refused hu => exact ⟨_, List.mem_cons_of_mem _ List.mem_cons_self⟩

/-- A call that is open has neither returned nor failed. -/
theorem Kept.not_ended_of_open (h : Kept job c) (ho : n ∈ c.openCalls.map (·.number)) :
    .returned n ∉ c.past ∧ ∀ e, .failed n e ∉ c.past := by
  obtain ⟨o, hopen, rfl⟩ := List.mem_map.mp ho
  obtain ⟨hr, hf⟩ := (h.waits o hopen).not_ended
  refine ⟨fun hm => ?_, fun e hm => ?_⟩
  · have hstory : Occasion.returned o.number ∈ story o.number c.past := mem_story.mpr ⟨hm, rfl⟩
    exact Bool.false_ne_true (hr.symm.trans (List.any_eq_true.mpr ⟨_, hstory, rfl⟩))
  · exact hasFailed_eq_false.mp hf o.number e (mem_story.mpr ⟨hm, rfl⟩)

/-- An error has not returned when a task ends well: it still runs when the client hears of that, or
it had failed by the time when the clock came back to the finish, or it began after that. -/
theorem no_error_has_returned_when_a_task_ends_well (job : Job) (turns : List Turn) {n : Nat}
    {p : TaskFinish} {before later : List Occasion}
    (hp : (after job turns).past = before ++ .handed n (.notify (.taskFinish p)) :: later)
    (hok : p.status = .ok) :
    let past := (after job turns).past
    ∃ early t late, before = early ++ .toldTime n t :: late ∧ firstFor .finish past = some n ∧
      ∀ k call q, .began k call ∈ past → call.counted? = some .error →
        .handed k (.notify (.publish q)) ∈ before →
          (.began k call ∈ early ∧ .returned k ∉ before ∧ ∀ e, .failed k e ∉ before) ∨
            (∃ e, .failed k e ∈ early) ∨ .began k call ∈ late := by
  intro past
  have h : Reached job (fun _ => True) (after job turns) := reached_after job fun _ _ => trivial
  have htime : announced? (.taskFinish p) = some (.finish, p.eventTime) := rfl
  have hfirst : firstFor .finish past = some n := by
    have hmem : .handed n (.notify (.taskFinish p)) ∈ past := by simp [past, hp]
    exact h.firstFor_of_announcement hmem rfl
  obtain ⟨b, e, waiting, line, below, hmade, ⟨middle, hmiddle⟩, he, ho, rfl⟩ :=
    h.announced_at htime hp
  have hb := hmade.reached
  have hnotice : p = finishNotice job b.session p.eventTime := by
    simpa [noticeFor] using hmade.notice
  have hbelow : e.openCalls.map (·.number) = b.openCalls.map (·.number) := by
    rw [ho, hmade.waiting]
    rfl
  have hpast : e.past ++ [.cameBack n] = b.past ++ .toldTime n p.eventTime ::
      (.handed n (.log .info line) :: (middle ++ [.cameBack n])) := by
    rw [← hmiddle]
    simp
  refine ⟨b.past, p.eventTime, _, hpast, hfirst, fun k call q hbegan hc hq => ?_⟩
  by_cases hearly : .began k call ∈ b.past
  · rcases hb.kept.open_or_ended hearly with ⟨hopen, -⟩ | ⟨-, hended⟩
    -- the finish stands within the call, which is below it as long as the finish is open
    · obtain ⟨hr, hf⟩ := he.kept.not_ended_of_open (hbelow ▸ hopen)
      exact .inl ⟨hearly, by simpa using hr, by simpa using hf⟩
    · cases hr : hasReturned (story k b.past) with
      | true =>
        rw [hnotice, hb.status_of_returned hearly hc hr] at hok
        cases hok
      | false =>
        obtain ⟨x, hx⟩ := hended.failed_of_not_returned hr
        exact .inr (.inl ⟨x, (mem_story.mp hx).1⟩)
  · have hq' : Occasion.handed k (.notify (.publish q)) ∈ e.past := by simpa using hq
    have hlt : k < e.begun := he.kept.past_lt _ hq'
    obtain ⟨other, hother, -⟩ := he.kept.story_of_lt hlt
    have hsame : other = call := h.kept.began_unique (by simp [hp, hother]) hbegan
    have hlate : Occasion.began k call ∈ e.past ++ [.cameBack n] := by
      simpa [hsame] using hother
    rw [hpast, List.mem_append] at hlate
    exact .inr (.inr ((List.mem_cons.mp (hlate.resolve_left hearly)).resolve_left (by simp)))

theorem three_errors_that_have_not_returned :
    let job : Job := { target := ⟨"file:///t"⟩, name := "t", task := { id := "1" } }
    let p : Problem :=
      { severity := .error, message := "undefined", position := { file := some "/a" } }
    let turns : List Turn :=
      [⟨{}, .call (.problem .error p)⟩, ⟨{}, .raise (.raised "closed")⟩,
        ⟨{}, .call (.problem .error p)⟩, ⟨{}, .call .finish⟩, ⟨{}, .time 5⟩,
        ⟨{}, .call (.ownProblem p)⟩, ⟨{}, .back⟩, ⟨{}, .back⟩, ⟨{}, .back⟩, ⟨{}, .back⟩]
    let past := (after job turns).past
    let finish : TaskFinish :=
      { task := { id := "1" }
        eventTime := 5
        status := .ok
        message := "Compiled t"
        report := { target := ⟨"file:///t"⟩, errors := 0, warnings := 0 } }
    let before := past.take 14
    past = before ++ .handed 2 (.notify (.taskFinish finish)) :: past.drop 15 ∧
      finish.status = .ok ∧
      ∃ early t late, before = early ++ .toldTime 2 t :: late ∧ firstFor .finish past = some 2 ∧
        ∀ k call q, .began k call ∈ past → call.counted? = some .error →
          .handed k (.notify (.publish q)) ∈ before →
            (.began k call ∈ early ∧ .returned k ∉ before ∧ ∀ e, .failed k e ∉ before) ∨
              (∃ e, .failed k e ∈ early) ∨ .began k call ∈ late := by
  intro job p turns past finish before
  have hp : past = before ++ .handed 2 (.notify (.taskFinish finish)) :: past.drop 15 := by
    decide +kernel
  exact ⟨hp, rfl, no_error_has_returned_when_a_task_ends_well job turns hp rfl⟩

/-- A task can end well although an error was published before: here the finish stands within the
error, which is not counted until the client comes back from the publication. -/
theorem a_task_ends_well_within_an_error :
    let job : Job := { target := ⟨"file:///t"⟩, name := "t", task := { id := "1" } }
    let p : Problem :=
      { severity := .error, message := "undefined", position := { file := some "/a" } }
    let turns : List Turn :=
      [⟨{}, .call (.problem .error p)⟩, ⟨{}, .call .finish⟩, ⟨{}, .time 5⟩, ⟨{}, .back⟩]
    let past := (after job turns).past
    ¬ ∀ before later n finish, past = before ++ .handed n (.notify (.taskFinish finish)) :: later →
      finish.status = .ok → ∀ k call q, .began k call ∈ past → call.counted? = some .error →
        .handed k (.notify (.publish q)) ∉ before := by
  intro job p turns past hnever
  let d : Diagnostic := Diagnostic.ofProblem p
  let finish : TaskFinish :=
    { task := { id := "1" }
      eventTime := 5
      status := .ok
      message := "Compiled t"
      report := { target := ⟨"file:///t"⟩, errors := 0, warnings := 0 } }
  have hp : past = past.take 7 ++ .handed 1 (.notify (.taskFinish finish)) :: [] := by
    decide +kernel
  have hpublished : .handed 0 (.notify (.publish (publication job ⟨"file:///a"⟩ [d]))) ∈
      past.take 7 := by
    decide +kernel
  exact hnever _ _ 1 finish hp rfl 0 (.problem .error p) _ (by decide +kernel) rfl hpublished

end BuildFeed.Session.Course
