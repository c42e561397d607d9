-- The time in a report. It is the span from the moment when the clock came back to the start to
-- the moment when it came back to the finish. Whether there is one is settled then, and not by the
-- order in which the client hears of the start and of the finish.
import BuildFeed.Proofs.Session.Report

namespace BuildFeed.Session.Course

variable {job : Job} {ok : Trace.Setup → Prop} {b c : Course} {n : Nat} {t : Number}
  {use : TimeUse} {notice : Notice Diagnostic} {before later es : List Occasion}

/-! ## Each call is told the time once -/

/-- Who is told the time was waiting for it. -/
theorem Step.asking_of_told {setup : Trace.Setup} {d : Course} {more : List Occasion}
    (hs : Step job setup c d) (hp : d.past = c.past ++ (es ++ .toldTime n t :: more)) :
    es = [] ∧ ∃ call use rest, c.openCalls = ⟨n, call, .time use⟩ :: rest := by
  have hnew : ∀ {as}, c.past ++ as = d.past → as = es ++ .toldTime n t :: more := by
    intro as has
    exact List.append_cancel_left (has.trans hp)
  cases hs with
  | refused | asked | ignored | published | announced | returned | failed =>
    have heq := hnew rfl
    have hmem : Occasion.toldTime n t ∈ es ++ .toldTime n t :: more := by simp
    simp [← heq] at hmem
  | told ho =>
    obtain ⟨rfl, heq⟩ := first_of_two (hnew rfl) (by simp)
    cases heq
    exact ⟨rfl, _, _, _, ho⟩

theorem Reached.told_once (h : Reached job ok c)
    (hp : c.past = before ++ .toldTime n t :: later) (s : Number) : .toldTime n s ∉ before := by
  obtain ⟨b, d, setup, es, more, hb, -, hs, rfl, hd⟩ := h.step_at hp
  obtain ⟨rfl, call, use, rest, ho⟩ := hs.asking_of_told hd
  rw [List.append_nil]
  exact (hb.first_of_asking ho).2 s

theorem Reached.told_unique (h : Reached job ok c) {s : Number} (hs : .toldTime n s ∈ c.past)
    (ht : .toldTime n t ∈ c.past) : s = t := by
  obtain ⟨x, y, hxy⟩ := List.append_of_mem hs
  rw [hxy, List.mem_append, List.mem_cons] at ht
  rcases ht with hx | heq | hy
  · exact absurd hx (h.told_once hxy t)
  · cases heq
    rfl
  · obtain ⟨y₁, y₂, rfl⟩ := List.append_of_mem hy
    have hxy' : c.past = (x ++ .toldTime n s :: y₁) ++ .toldTime n t :: y₂ := by simp [hxy]
    exact absurd (by simp) (h.told_once hxy' s)

/-- What the client hears of a start or a finish comes from the first call for it, which has been
told just the time that is announced. -/
theorem Reached.told_of_announced (h : Reached job ok c) (hn : announced? notice = some (use, t))
    (hm : .handed n (.notify notice) ∈ c.past) :
    firstFor use c.past = some n ∧ .toldTime n t ∈ c.past := by
  refine ⟨h.firstFor_of_announcement hm (by simp [announcement?, hn]), ?_⟩
  obtain ⟨before, later, hp⟩ := List.append_of_mem hm
  obtain ⟨b, e, call, line, below, -, hprefix, -, -, rfl⟩ := h.announced_at hn hp
  have htold : Occasion.toldTime n t ∈ e.past := hprefix.subset (by simp)
  simp [hp, htold]

/-! ## What was known at an earlier moment -/

/-- The first call of a course was the first already when it had been told the time. -/
theorem Reached.first_of_told (hb : Reached job ok b) (hc : Reached job ok c)
    (hp : c.past = b.past ++ es) (hf : firstFor use c.past = some n)
    (ht : .toldTime n t ∈ b.past) : firstFor use b.past = some n := by
  obtain ⟨call, hbegan, -⟩ := hb.kept.story_of_lt (hb.kept.past_lt _ ht)
  obtain ⟨other, hother, hu⟩ := began_of_firstFor hf
  have hsame : call = other := hc.kept.began_unique (hp ▸ List.mem_append_left es hbegan) hother
  have hsome : firstFor use b.past ≠ none := by
    intro hnone
    have hnot := List.findSome?_eq_none_iff.mp hnone _ hbegan
    simp [beginning?, hsame, hu] at hnot
  obtain ⟨k, hk⟩ := Option.ne_none_iff_exists'.mp hsome
  rw [hp, firstFor_append, hk, Option.some_or] at hf
  rw [hk, hf]

/-- The session knew the time of the start just if the first start of the course had been told it
by then. -/
theorem Reached.startedAt_of_first (hb : Reached job ok b) (hc : Reached job ok c)
    (hp : c.past = b.past ++ es) (hf : firstFor .start c.past = some n) (s : Number) :
    b.session.startedAt = some s ↔ .toldTime n s ∈ b.past := by
  rw [hb.startedAt]
  constructor
  · rintro ⟨k, hk, hs⟩
    rw [hp, firstFor_append, hk, Option.some_or, Option.some.injEq] at hf
    exact hf ▸ hs
  · intro hs
    exact ⟨n, hb.first_of_told hc hp hf hs, hs⟩

theorem Reached.startedAt_eq_none (hb : Reached job ok b) (hp : c.past = b.past ++ es)
    (hnot : ∀ m s, firstFor .start c.past = some m → .toldTime m s ∉ b.past) :
    b.session.startedAt = none := by
  rw [Option.eq_none_iff_forall_ne_some]
  intro s hs
  obtain ⟨m, hf, ht⟩ := (hb.startedAt s).mp hs
  refine hnot m s ?_ ht
  rw [hp, firstFor_append, hf, Option.some_or]

/-- If the client has got a start, the session knew its time at an earlier moment just if the clock
had come back to it by then. -/
theorem Reached.startedAt_of_heard (hb : Reached job ok b) (hc : Reached job ok c)
    (hp : c.past = b.past ++ es) {q : TaskStart}
    (hm : .handed n (.notify (.taskStart q)) ∈ c.past) :
    (.toldTime n q.eventTime ∈ b.past ∧ b.session.startedAt = some q.eventTime) ∨
      (.toldTime n q.eventTime ∈ es ∧ b.session.startedAt = none) := by
  have hq : announced? (.taskStart q) = some (.start, q.eventTime) := rfl
  obtain ⟨hf, ht⟩ := hc.told_of_announced hq hm
  rw [hp, List.mem_append] at ht
  rcases ht with hearly | hlate
  · exact .inl ⟨hearly, (hb.startedAt_of_first hc hp hf _).mpr hearly⟩
  · refine .inr ⟨hlate, ?_⟩
    -- the start is told the time only once, and that was too late
    obtain ⟨x, y, rfl⟩ := List.append_of_mem hlate
    have hsplit : c.past = (b.past ++ x) ++ .toldTime n q.eventTime :: y := by simp [hp]
    rw [Option.eq_none_iff_forall_ne_some]
    intro s hs
    have hs' := (hb.startedAt_of_first hc hp hf s).mp hs
    exact hc.told_once hsplit s (List.mem_append_left _ hs')

/-! ## Where the client gets a finish -/

/-- The finish that the client gets was made up when the clock came back to it. -/
theorem Reached.finish_made_at (h : Reached job ok c) {p : TaskFinish}
    (hp : c.past = before ++ .handed n (.notify (.taskFinish p)) :: later) :
    ∃ b e late, Reached job ok b ∧ Reached job ok e ∧
      e.past = b.past ++ .toldTime n p.eventTime :: late ∧ before = e.past ++ [.cameBack n] ∧
      p = finishNotice job b.session p.eventTime := by
  have htime : announced? (.taskFinish p) = some (.finish, p.eventTime) := rfl
  obtain ⟨b, e, call, line, below, hmade, ⟨middle, hmiddle⟩, he, -, hbefore⟩ :=
    h.announced_at htime hp
  refine ⟨b, e, .handed n (.log .info line) :: middle, hmade.reached, he, ?_, hbefore, ?_⟩
  · simp [← hmiddle]
  · simpa [noticeFor] using hmade.notice

/-- So is the time in its report. -/
theorem Reached.finish_at (h : Reached job ok c) {p : TaskFinish}
    (hp : c.past = before ++ .handed n (.notify (.taskFinish p)) :: later) :
    ∃ b e late, Reached job ok b ∧ Reached job ok e ∧
      e.past = b.past ++ .toldTime n p.eventTime :: late ∧ before = e.past ++ [.cameBack n] ∧
      p.report.time = b.session.startedAt.map (p.eventTime - ·) := by
  obtain ⟨b, e, late, hb, he, hbe, hbefore, hnotice⟩ := h.finish_made_at hp
  refine ⟨b, e, late, hb, he, hbe, hbefore, ?_⟩
  rw [hnotice]
  rfl

/-- No call is both the start and the finish. -/
theorem Reached.start_ne_finish (h : Reached job ok c) {m : Nat} {q : TaskStart} {p : TaskFinish}
    (hq : .handed m (.notify (.taskStart q)) ∈ c.past)
    (hp : .handed n (.notify (.taskFinish p)) ∈ c.past) : m ≠ n := by
  rintro rfl
  have hstart : firstFor .start c.past = some m := h.firstFor_of_announcement hq rfl
  have hfinish : firstFor .finish c.past = some m := h.firstFor_of_announcement hp rfl
  exact absurd (h.use_of_first hstart hfinish) (by decide)

/-! ## What a start has to do before it returns -/

/-- A start or a finish that has been told the time and has returned was announced. -/
theorem Story.announced_of_returned {call : Call} (h : Story job n call es)
    (hu : call.use? = some use) (ht : .toldTime n t ∈ es) (hr : .returned n ∈ es) :
    ∃ notice s, announced? notice = some (use, s) ∧ .handed n (.notify notice) ∈ es := by
  rcases h with ⟨a, hw⟩ | he
  · cases hw <;> simp at hr
  · cases he with
    | failed hw => cases hw <;> simp at hr
    | refused hu' => simp at hr
    | returned hw =>
      generalize htodo : call.countings = todo at hw
      cases hw with
      | line hu' hn => cases (countings_of_use hu').symm.trans htodo
      | notice hu' hn =>
        cases hu.symm.trans hu'
        exact ⟨_, _, hn, by simp⟩
      | refusal hu' => simp at ht
      | publication hd hp => simp at ht

theorem Reached.heard_of_returned (h : Reached job ok c) (hf : firstFor .start c.past = some n)
    (ht : .toldTime n t ∈ c.past) (hr : .returned n ∈ c.past) :
    ∃ q, .handed n (.notify (.taskStart q)) ∈ c.past := by
  obtain ⟨call, hbegan, hu⟩ := began_of_firstFor hf
  obtain ⟨notice, s, hn, hm⟩ := (h.kept.story_of_began hbegan).announced_of_returned hu
    (mem_story.mpr ⟨ht, rfl⟩) (mem_story.mpr ⟨hr, rfl⟩)
  cases notice with
  | publish q => simp [announced?] at hn
  | taskFinish q => simp [announced?] at hn
  | taskStart q => exact ⟨q, (mem_story.mp hm).1⟩

/-! ## The law -/

/-- In every course, the report of a finish is settled when the clock comes back to that finish. It
carries no time where the clock had not come back to the first start by then. If the client got the
start before the finish, the report carries the time since then, unless the clock came back to the
start only after it had come back to the finish. If the client has not got the start although the
clock had come back to it, then the start has not returned, and the report carries the time since the
start's reading, which is what the client hears if it hears of the start at all. -/
theorem a_report_carries_the_time_since_the_start (job : Job) (turns : List Turn) {n : Nat}
    {p : TaskFinish} {before later : List Occasion}
    (hp : (after job turns).past = before ++ .handed n (.notify (.taskFinish p)) :: later) :
    let past := (after job turns).past
    ∃ early t late, before = early ++ .toldTime n t :: late ∧ p.eventTime = t ∧
      ((∀ m s, firstFor .start past = some m → .toldTime m s ∉ early) → p.report.time = none) ∧
      (∀ m q, .handed m (.notify (.taskStart q)) ∈ before →
        (.toldTime m q.eventTime ∈ early ∧ p.report.time = some (t - q.eventTime)) ∨
          (.toldTime m q.eventTime ∈ late ∧ p.report.time = none)) ∧
      ((∀ m q, .handed m (.notify (.taskStart q)) ∉ before) →
        ∀ m s, firstFor .start past = some m → .toldTime m s ∈ early →
          p.report.time = some (t - s) ∧ .returned m ∉ before ∧
            ∀ k q, .handed k (.notify (.taskStart q)) ∈ later → q.eventTime = s) := by
  intro past
  have h : Reached job (fun _ => True) (after job turns) := reached_after job fun _ _ => trivial
  -- three moments: the clock comes back to the finish, the client gets it, and the end
  obtain ⟨b, e, late, hb, he, hbe, rfl, hreport⟩ := h.finish_at hp
  have hend : (after job turns).past =
      e.past ++ .cameBack n :: .handed n (.notify (.taskFinish p)) :: later := by
    simpa using hp
  have hend' : (after job turns).past = b.past ++ (.toldTime n p.eventTime :: late ++
      .cameBack n :: .handed n (.notify (.taskFinish p)) :: later) := by
    simp [hend, hbe]
  refine ⟨b.past, p.eventTime, late ++ [.cameBack n], by simp [hbe], rfl, ?_, ?_, ?_⟩
  · intro hnot
    rw [hreport, hb.startedAt_eq_none hend' hnot]
    rfl
  · intro m q hm
    have hm' : .handed m (.notify (.taskStart q)) ∈ e.past := by simpa using hm
    rcases hb.startedAt_of_heard he hbe hm' with ⟨hearly, hsome⟩ | ⟨hafter, hnone⟩
    · left
      rw [hreport, hsome]
      exact ⟨hearly, rfl⟩
    · right
      have hne : m ≠ n :=
        h.start_ne_finish (hend ▸ List.mem_append_left _ hm') (hp ▸ List.mem_append_cons_self)
      have hmem : .toldTime m q.eventTime ∈ late :=
        (List.mem_cons.mp hafter).resolve_left fun heq => hne (congrArg Occasion.number heq)
      rw [hreport, hnone]
      exact ⟨List.mem_append_left _ hmem, rfl⟩
  · intro hnone m s hf hs
    have hmem : .toldTime m s ∈ e.past := hbe ▸ List.mem_append_left _ hs
    refine ⟨?_, fun hr => ?_, fun k q hq => ?_⟩
    · rw [hreport, (hb.startedAt_of_first h hend' hf s).mpr hs]
      rfl
    · obtain ⟨q, hq⟩ :=
        he.heard_of_returned (he.first_of_told h hend hf hmem) hmem (by simpa using hr)
      exact hnone m q (List.mem_append_left _ hq)
    · have hn : announced? (.taskStart q) = some (.start, q.eventTime) := rfl
      have hq' : .handed k (.notify (.taskStart q)) ∈ (after job turns).past := by
        simp [hend, hq]
      obtain ⟨hk, ht⟩ := h.told_of_announced hn hq'
      cases hk.symm.trans hf
      exact h.told_unique ht (by simp [hend', hs])

theorem a_finish_within_the_line_of_a_start :
    let job : Job := { target := ⟨"file:///t"⟩, name := "t", task := { id := "1" } }
    let turns : List Turn :=
      [⟨{}, .call .start⟩, ⟨{}, .time 5⟩, ⟨{}, .call .summary⟩, ⟨{}, .time 12⟩, ⟨{}, .back⟩,
        ⟨{}, .back⟩, ⟨{}, .back⟩, ⟨{}, .raise (.raised "closed")⟩]
    let past := (after job turns).past
    let finish : TaskFinish :=
      { task := { id := "1" }
        eventTime := 12
        status := .ok
        message := "Compiled t"
        report := { target := ⟨"file:///t"⟩, errors := 0, warnings := 0, time := some 7 } }
    let before := past.take 9
    let later := past.drop 10
    past = before ++ .handed 1 (.notify (.taskFinish finish)) :: later ∧
      .handed 0 (.notify (.taskStart (startNotice job 5))) ∈ later ∧
      ∃ early t late, before = early ++ .toldTime 1 t :: late ∧ finish.eventTime = t ∧
        ((∀ m s, firstFor .start past = some m → .toldTime m s ∉ early) →
          finish.report.time = none) ∧
        (∀ m q, .handed m (.notify (.taskStart q)) ∈ before →
          (.toldTime m q.eventTime ∈ early ∧ finish.report.time = some (t - q.eventTime)) ∨
            (.toldTime m q.eventTime ∈ late ∧ finish.report.time = none)) ∧
        ((∀ m q, .handed m (.notify (.taskStart q)) ∉ before) →
          ∀ m s, firstFor .start past = some m → .toldTime m s ∈ early →
            finish.report.time = some (t - s) ∧ .returned m ∉ before ∧
              ∀ k q, .handed k (.notify (.taskStart q)) ∈ later → q.eventTime = s) := by
  intro job turns past finish before later
  have hp : past = before ++ .handed 1 (.notify (.taskFinish finish)) :: later := by
    decide +kernel
  exact ⟨hp, by decide +kernel, a_report_carries_the_time_since_the_start job turns hp⟩

/-- The report of each finish carries a time just if the client got a start before, and then the
span from that start to the finish. -/
def TimedByNotices (past : List Occasion) : Prop :=
  ∀ before later n p, past = before ++ .handed n (.notify (.taskFinish p)) :: later →
    (p.report.time.isSome = true ↔ ∃ m q, .handed m (.notify (.taskStart q)) ∈ before) ∧
      ∀ m q, .handed m (.notify (.taskStart q)) ∈ before →
        p.report.time = some (p.eventTime - q.eventTime)

/-- Reports need not be timed by what the client got: a start within the line of a finish comes too
late for the report, and a finish within the line of a start is timed although the client has not
got the start yet. -/
theorem a_report_is_not_timed_by_the_notices :
    let job : Job := { target := ⟨"file:///t"⟩, name := "t", task := { id := "1" } }
    let startWithin : List Turn :=
      [⟨{}, .call .finish⟩, ⟨{}, .time 9⟩, ⟨{}, .call .start⟩, ⟨{}, .time 5⟩, ⟨{}, .back⟩,
        ⟨{}, .back⟩, ⟨{}, .back⟩]
    let finishWithin : List Turn :=
      [⟨{}, .call .start⟩, ⟨{}, .time 5⟩, ⟨{}, .call .finish⟩, ⟨{}, .time 9⟩, ⟨{}, .back⟩]
    ¬ TimedByNotices (after job startWithin).past ∧
      ¬ TimedByNotices (after job finishWithin).past := by
  intro job startWithin finishWithin
  let finish (time : Option Number) : TaskFinish :=
    { task := { id := "1" }
      eventTime := 9
      status := .ok
      message := "Compiled t"
      report := { target := ⟨"file:///t"⟩, errors := 0, warnings := 0, time } }
  constructor
  · intro htimed
    have hp : (after job startWithin).past = (after job startWithin).past.take 13 ++
        [.handed 0 (.notify (.taskFinish (finish none)))] := by
      decide +kernel
    have hstart : .handed 1 (.notify (.taskStart (startNotice job 5))) ∈
        (after job startWithin).past.take 13 := by
      decide +kernel
    exact absurd ((htimed _ _ 0 _ hp).2 1 _ hstart) (by decide)
  · intro htimed
    have hp : (after job finishWithin).past = (after job finishWithin).past.take 9 ++
        [.handed 1 (.notify (.taskFinish (finish (some 4))))] := by
      decide +kernel
    obtain ⟨m, q, hm⟩ := (htimed _ _ 1 _ hp).1.mp rfl
    have hnone : announcements .start ((after job finishWithin).past.take 9) = [] := by
      decide +kernel
    exact absurd (List.filterMap_eq_nil_iff.mp hnone _ hm) (by simp [announcement?, announced?])

end BuildFeed.Session.Course
