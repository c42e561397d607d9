-- Calls within calls, and the same calls in turn. A call looks at the board and at the latches only
-- in its first stretch, and changes them only there, before anybody else can call. So calls that
-- stand in one another leave the board as the same calls made one after the other would, in the
-- order in which they began.
import BuildFeed.Proofs.Session.Counts
import BuildFeed.Proofs.Session.Milestones
import BuildFeed.Proofs.Session.Published

namespace BuildFeed.Session.Course

/-! ## A call by itself -/

/-- A call that is made by itself: the world that it sees, and the time that it is told if it
asks. -/
structure Solo where
  setup : Trace.Setup
  call : Call
  time : Number

/-- The turns of a call that nobody interrupts. It is told the time if it asks for it, and whoever
was handed something comes back at once. -/
def Solo.turns (x : Solo) : List Turn :=
  [⟨x.setup, .call x.call⟩, ⟨x.setup, .time x.time⟩, ⟨x.setup, .back⟩, ⟨x.setup, .back⟩]

/-- The turns of calls that are made one after the other. -/
def inTurn (cs : List Solo) : List Turn := cs.flatMap Solo.turns

/-- The course after a call that is made by itself. -/
def alone (job : Job) (f : Course) (x : Solo) : Course :=
  (((f.move job x.setup (.call x.call)).move job x.setup (.time x.time)).move job x.setup
    .back).move job x.setup .back

theorem after_inTurn_append_singleton (job : Job) (cs : List Solo) (x : Solo) :
    after job (inTurn (cs ++ [x])) = (after job (inTurn cs)).alone job x := by
  simp [after, inTurn, Solo.turns, alone]

variable {job : Job} {f : Course} {x : Solo}

theorem alone_of_error (hf : f.openCalls = []) {e : Fault} {s : Session}
    (hs : (f.session.begin job x.setup x.call).state = s)
    (hr : (f.session.begin job x.setup x.call).result = .error e) :
    f.alone job x =
      { session := s
        openCalls := []
        begun := f.begun + 1
        past := f.past ++ [.began f.begun x.call, .failed f.begun e] } := by
  rw [alone, move_call_of_error hs hr, hf, move_of_idle rfl (by simp), move_of_idle rfl (by simp),
    move_of_idle rfl (by simp)]

theorem alone_of_hand (hf : f.openCalls = []) {h : Handover} {s : Session}
    (hs : (f.session.begin job x.setup x.call).state = s)
    (hr : (f.session.begin job x.setup x.call).result =
      .ok (.acts (.hand h :: x.call.countings))) :
    f.alone job x =
      { session := s.countedFor x.call
        openCalls := []
        begun := f.begun + 1
        past := f.past ++ ([.began f.begun x.call, .handed f.begun h] ++
          [.cameBack f.begun, .returned f.begun]) } := by
  rw [alone, move_call_of_hand hs hr, hf, move_time_of_back rfl]
  refine (congrArg (fun c => move job x.setup c .back) (move_back_of_countings rfl)).trans ?_
  rw [move_of_idle rfl (by simp)]
  simp

theorem alone_of_askTime (hf : f.openCalls = []) {use : TimeUse} {s : Session}
    (hu : x.call.use? = some use)
    (hs : (f.session.begin job x.setup x.call).state = s)
    (hr : (f.session.begin job x.setup x.call).result = .ok (.askTime use)) :
    f.alone job x =
      { session := (s.told job use x.time).1
        openCalls := []
        begun := f.begun + 1
        past := f.past ++ ([.began f.begun x.call, .askedTime f.begun] ++
          [.toldTime f.begun x.time, .handed f.begun (.log .info (s.lineFor job use)),
            .cameBack f.begun, .handed f.begun (.notify (s.noticeFor job x.time use)),
            .cameBack f.begun, .returned f.begun]) } := by
  rw [alone, move_call_of_askTime hs hr, hf, move_time rfl]
  refine (congrArg (fun c => move job x.setup c .back) (move_back_of_hand rfl)).trans ?_
  rw [← countings_of_use hu, move_back_of_countings rfl]
  simp [countedFor_of_use hu]

/-- A call that is made by itself leaves no call open. -/
theorem openCalls_alone (hf : f.openCalls = []) : (f.alone job x).openCalls = [] := by
  have hb := begin_begins job x.setup f.session x.call
  generalize hs : (f.session.begin job x.setup x.call).state = s at hb
  generalize hr : (f.session.begin job x.setup x.call).result = result at hb
  cases hb with
  | asks hu hup => rw [alone_of_askTime hf hu hs hr]
  | ignored hu hfallen => rw [alone_of_hand hf hs (by rw [hr, countings_of_use hu])]
  | publishes hd => rw [alone_of_hand hf hs hr]
  | fails hu hb => rw [alone_of_error hf hs hr]

theorem openCalls_inTurn (job : Job) (cs : List Solo) :
    (after job (inTurn cs)).openCalls = [] := by
  induction cs using List.reverseRecOn with
  | nil => rfl
  | append_singleton cs x ih =>
    rw [after_inTurn_append_singleton]
    exact openCalls_alone ih

/-! ## What a move leaves as it was -/

theorem begun_proceed (n : Nat) (call : Call) (todo : List Act) (c : Course) :
    (c.proceed n call todo).begun = c.begun := by
  induction todo generalizing c with
  | nil => rfl
  | cons act rest ih =>
    cases act with
    | hand h => rfl
    | count s => exact ih _

theorem begun_move {c : Course} {setup : Trace.Setup} {m : Move} (hm : ∀ call, m ≠ .call call) :
    (c.move job setup m).begun = c.begun := by
  cases m with
  | call call => exact absurd rfl (hm call)
  | time t =>
    simp only [move]
    split
    · exact begun_proceed ..
    · rfl
  | back =>
    simp only [move]
    split
    · exact begun_proceed ..
    · rfl
  | raise e =>
    simp only [move]
    split
    · rfl
    · rfl

theorem told_recounted (job : Job) (s : Session) (use : TimeUse) (t : Number) :
    ∃ startedAt, (s.told job use t).1 = s.recounted s.tally startedAt := by
  cases use with
  | start => exact ⟨some t, rfl⟩
  | finish => exact ⟨s.startedAt, rfl⟩

theorem countedFor_recounted (call : Call) (s : Session) :
    ∃ tally, s.countedFor call = s.recounted tally s.startedAt := by
  unfold countedFor
  split
  · exact ⟨_, rfl⟩
  · exact ⟨s.tally, rfl⟩

/-- A step with which no call begins publishes nothing, and of the session it changes no more than
the counts and the time of the start. -/
theorem Step.keeps {setup : Trace.Setup} {c d : Course} (hs : Step job setup c d) (hk : Kept job c)
    (hb : d.begun = c.begun) :
    (∃ tally startedAt, d.session = c.session.recounted tally startedAt) ∧
      ∃ es, d.past = c.past ++ es ∧ publications d.past = publications c.past ∧
        calls d.past = calls c.past := by
  cases hs with
  | refused | asked | ignored | published => exact absurd hb (Nat.succ_ne_self _)
  | told ho =>
    obtain ⟨startedAt, h⟩ := told_recounted job c.session _ _
    exact ⟨⟨_, startedAt, h⟩, _, rfl, publications_of_none (by simp),
      calls_of_none (by simp)⟩
  | announced ho =>
    have hnone := hk.publication?_of_line ho
    exact ⟨⟨_, _, rfl⟩, _, rfl, publications_of_none (by simp [hnone]),
      calls_of_none (by simp)⟩
  | @returned n call h rest ho =>
    obtain ⟨tally, h⟩ := countedFor_recounted call c.session
    exact ⟨⟨tally, _, h⟩, _, rfl, publications_of_none (by simp),
      calls_of_none (by simp)⟩
  | failed ho =>
    exact ⟨⟨_, _, rfl⟩, _, rfl, publications_of_none (by simp),
      calls_of_none (by simp)⟩

/-! ## Calls within calls against calls in turn -/

/-- A course in which calls may stand in one another, and one in which the same calls were made in
turn: they differ in their counts and in what their calls have been through since they began, but
not in what was published. A call that failed in turn was refused, and so it was in the other. -/
structure Alike (c f : Course) : Prop where
  session : ∃ tally startedAt, f.session = c.session.recounted tally startedAt
  begun : f.begun = c.begun
  published : publications f.past = publications c.past
  made : calls f.past = calls c.past
  failed : ∀ n e, .failed n e ∈ f.past → .failed n e ∈ c.past

/-- When no call begins in the first course, the two are alike as they were. -/
theorem Alike.left {c : Course} {ok : Trace.Setup → Prop} (h : Alike c f) (hc : Reached job ok c)
    (setup : Trace.Setup) {m : Move} (hm : ∀ call, m ≠ .call call) :
    Alike (c.move job setup m) f := by
  have hbegun : (c.move job setup m).begun = c.begun := begun_move hm
  rcases hc.kept.move setup m with hsame | hs
  · rwa [hsame]
  · obtain ⟨⟨tally, startedAt, hsession⟩, es, hpast, hpub, hcalls⟩ := hs.keeps hc.kept hbegun
    obtain ⟨tally', startedAt', h'⟩ := h.session
    refine ⟨⟨tally', startedAt', by rw [h', hsession]; rfl⟩, h.begun.trans hbegun.symm,
      h.published.trans hpub.symm, h.made.trans hcalls.symm, fun n e he => ?_⟩
    rw [hpast]
    exact List.mem_append_left _ (h.failed n e he)

/-- The same call begins in both courses, and in the second one it comes to its end. -/
theorem Alike.extend {c : Course} (h : Alike c f) {s r : Session} {now rest : List OpenCall}
    {es more : List Occasion} {tally : Tally} {startedAt : Option Number}
    (hr : r = s.recounted tally startedAt)
    (hmore : ∀ e ∈ more, publication? e = none ∧ (∀ n call, e ≠ .began n call) ∧
      ∀ n x, e ≠ .failed n x) :
    Alike { session := s, openCalls := now, begun := c.begun + 1, past := c.past ++ es }
      { session := r, openCalls := rest, begun := c.begun + 1,
        past := f.past ++ (es ++ more) } where
  session := ⟨tally, startedAt, hr⟩
  begun := rfl
  published := by
    have hes : publications (es ++ more) = publications es :=
      publications_of_none fun e he => (hmore e he).1
    simp only [publications_append, hes, h.published]
  made := by
    have hes : calls (es ++ more) = calls es := calls_of_none fun e he => (hmore e he).2.1
    simp only [calls_append, hes, h.made]
  failed := by
    intro n x hx
    rcases List.mem_append.mp hx with hx | hx
    · exact List.mem_append_left _ (h.failed n x hx)
    · rcases List.mem_append.mp hx with hx | hx
      · exact List.mem_append_right _ hx
      · exact absurd rfl ((hmore _ hx).2.2 n x)

/-- A call that is made within others in one course, and by itself in another. -/
theorem Alike.call {c : Course} (h : Alike c f) (hf : f.openCalls = []) :
    Alike (c.move job x.setup (.call x.call)) (f.alone job x) := by
  obtain ⟨tally, startedAt, hsession⟩ := h.session
  have hsame := begin_recounted job x.setup x.call tally startedAt c.session
  rw [← hsession] at hsame
  have hb := begin_begins job x.setup c.session x.call
  generalize hs : (c.session.begin job x.setup x.call).state = s at hb
  generalize hr : (c.session.begin job x.setup x.call).result = result at hb
  -- the counts lag behind in the one course, but the call does not look at them
  have hs' : (f.session.begin job x.setup x.call).state = s.recounted tally startedAt := by
    rw [hsame, ← hs]
    rfl
  have hr' : (f.session.begin job x.setup x.call).result = result := by
    rw [hsame, ← hr]
    rfl
  cases hb with
  | @asks use hu hup =>
    rw [move_call_of_askTime hs hr, alone_of_askTime hf hu hs' hr', h.begun]
    obtain ⟨again, hagain⟩ := told_recounted job
      ((c.session.letFall use).recounted tally startedAt) use x.time
    have hnone (s : Session) := publication?_of_announced (announced?_noticeFor job s x.time use)
    exact h.extend hagain (by simp [hnone])
  | ignored hu hfallen =>
    rw [move_call_of_hand hs hr, alone_of_hand hf hs' (by rw [hr', countings_of_use hu]), h.begun]
    rw [countedFor_of_use hu]
    exact h.extend rfl (by simp)
  | publishes hd =>
    rw [move_call_of_hand hs hr, alone_of_hand hf hs' hr', h.begun]
    obtain ⟨again, hagain⟩ := countedFor_recounted x.call (recounted tally startedAt _)
    exact h.extend hagain (by simp)
  | fails hu hb =>
    rw [move_call_of_error hs hr, alone_of_error hf hs' hr', h.begun]
    exact h.extend rfl (by simp)

/-- The call that a turn makes, with the world that it sees. -/
def Turn.made? (t : Turn) : Option (Trace.Setup × Call) :=
  match t.move with
  | .call call => some (t.setup, call)
  | _ => none

/-- The call that is made by itself, without the time that it is told. -/
def Solo.made (x : Solo) : Trace.Setup × Call := (x.setup, x.call)

/-- At every moment, a course is like the one in which its calls were made in turn. -/
theorem alike_inTurn (job : Job) {turns : List Turn} {cs : List Solo}
    (hcs : cs.map Solo.made = turns.filterMap Turn.made?) :
    Alike (after job turns) (after job (inTurn cs)) := by
  -- turn by turn: a call takes the last of `cs` with it, and every other turn leaves them all
  induction turns using List.reverseRecOn generalizing cs with
  | nil =>
    rw [List.map_eq_nil_iff.mp hcs]
    exact ⟨⟨_, _, rfl⟩, rfl, rfl, rfl, fun n e he => he⟩
  | append_singleton turns t ih =>
    have hreached : Reached job (fun _ => True) (after job turns) :=
      reached_after job fun _ _ => trivial
    rw [after_append_singleton]
    obtain ⟨setup, m⟩ := t
    by_cases hm : ∃ call, m = .call call
    · obtain ⟨call, rfl⟩ := hm
      rw [List.filterMap_append] at hcs
      obtain ⟨before, last, rfl, hbefore, hlast⟩ := List.map_eq_append_iff.mp hcs
      obtain ⟨x, rfl, hx⟩ := List.map_eq_singleton_iff.mp hlast
      cases hx
      rw [after_inTurn_append_singleton]
      exact (ih hbefore).call (openCalls_inTurn job before)
    · have hnot : ∀ call, m ≠ .call call := fun call h => hm ⟨call, h⟩
      refine (ih ?_).left hreached setup hnot
      rw [hcs, List.filterMap_append]
      have hnone : Turn.made? ⟨setup, m⟩ = none := by
        cases m with
        | call call => exact absurd rfl (hnot call)
        | _ => rfl
      simp [hnone]

/-! ## Courses in which all calls have returned -/

/-- All calls that have begun have returned. -/
structure AllReturned (c : Course) : Prop where
  closed : c.openCalls = []
  unfailed : hasFailed c.past = false

theorem AllReturned.unfailed_story {c : Course} (h : AllReturned c) (n : Nat) :
    hasFailed (story n c.past) = false :=
  hasFailed_eq_false.mpr fun k e he => hasFailed_eq_false.mp h.unfailed k e (mem_story.mp he).1

/-- Where no call is open, one that has not failed has returned. -/
theorem Kept.story_of_unfailed {c : Course} (h : Kept job c) (hclosed : c.openCalls = []) {n : Nat}
    {call : Call} (hb : .began n call ∈ c.past) (hunfailed : hasFailed (story n c.past) = false) :
    ∃ (handover : Handover) (es : List Occasion),
      Waits job n call (.back handover call.countings) es ∧
        story n c.past = es ++ [.cameBack n, .returned n] := by
  have hnone := hasFailed_eq_false.mp hunfailed
  rcases h.open_or_ended hb with ⟨hopen, -⟩ | ⟨-, he⟩
  · rw [hclosed] at hopen
    cases hopen
  · generalize story n c.past = es at he hnone
    cases he with
    | returned hw => exact ⟨_, _, hw, rfl⟩
    | @failed a es e hw => exact absurd (by simp) (hnone n e)
    | @refused e hu => exact absurd (by simp) (hnone n e)

theorem AllReturned.returnedUnder_eq {c : Course} (h : AllReturned c) (hk : Kept job c)
    (s : Severity) :
    returnedUnder s c.past = (calls c.past).countP (fun k => k.2.counted? = some s) := by
  refine List.countP_congr fun k hk' => ?_
  obtain ⟨handover, es, -, hstory⟩ :=
    hk.story_of_unfailed h.closed (mem_calls.mp hk') (h.unfailed_story k.1)
  simp [hstory, hasReturned]

/-- A call that has asked for the time and returned has been come back to from its line. -/
theorem Waits.lineBack_of_asked {n : Nat} {call : Call} {h : Handover} {es : List Occasion}
    (hw : Waits job n call (.back h call.countings) es) (hasked : .askedTime n ∈ es) :
    LineBack n (es ++ [.cameBack n, .returned n]) := by
  generalize htodo : call.countings = todo at hw
  cases hw with
  | line hu hn => cases (countings_of_use hu).symm.trans htodo
  | notice hu hn => exact ⟨_, [_, _, _], [_, _, _], rfl⟩
  | refusal hu => simp at hasked
  | publication hd hp => simp at hasked

/-- No call for a start, or for a finish, has failed. -/
def Unhindered (use : TimeUse) (past : List Occasion) : Prop :=
  ∀ k ∈ calls past, k.2.use? = some use → hasFailed (story k.1 past) = false

instance (use : TimeUse) (past : List Occasion) : Decidable (Unhindered use past) :=
  inferInstanceAs (Decidable (∀ k ∈ calls past, _ → _))

theorem AllReturned.unhindered {c : Course} (h : AllReturned c) (use : TimeUse) :
    Unhindered use c.past :=
  fun k _ _ => h.unfailed_story k.1

/-- Where no call is open and no call for a start, or a finish, has failed, it was announced if there
was a call for it. -/
theorem Reached.length_announcements {c : Course} {ok : Trace.Setup → Prop} (hc : Reached job ok c)
    (hclosed : c.openCalls = []) {use : TimeUse} (h : Unhindered use c.past) :
    (announcements use c.past).length = if (firstFor use c.past).isSome then 1 else 0 := by
  cases hf : firstFor use c.past with
  | none => simp [hc.announcements_of_none hf]
  | some n =>
    obtain ⟨call, hb, hu⟩ := began_of_firstFor hf
    obtain ⟨handover, es, hw, hstory⟩ :=
      hc.kept.story_of_unfailed hclosed hb (h (n, call) (mem_calls.mpr hb) hu)
    obtain ⟨hasked, hfate⟩ := hc.fate_of_first hf
    have hasked' : .askedTime n ∈ story n c.past := mem_story.mpr ⟨hasked, rfl⟩
    rw [hc.announcements_of_some hf]
    cases hfate with
    | turnedAway ha _ _ => exact absurd hasked' ha
    | stopped _ _ hl =>
      rw [hstory] at hasked' hl
      exact absurd (hw.lineBack_of_asked (by simpa using hasked')) hl
    | announced _ hn _ _ _ => simp [hn]

/-- Which call comes first is a matter of the calls alone. -/
theorem firstFor_eq (use : TimeUse) (past : List Occasion) :
    firstFor use past =
      ((calls past).filterMap fun k => if k.2.use? = some use then some k.1 else none).head? := by
  rw [firstFor, ← List.head?_filterMap, calls, List.filterMap_filterMap]
  congr 1
  refine List.filterMap_congr fun o _ => ?_
  cases o <;> rfl

/-! ## The law -/

/-- Calls may stand in one another in any way. If all of them return, then what is published, what
the session answers to each query in the end, and how often a start and a finish are announced is
the same as when these calls are made one after the other, in the order in which they began. -/
theorem nested_calls_come_to_the_same_as_calls_in_turn (job : Job) {turns : List Turn}
    {cs : List Solo} (hall : AllReturned (after job turns))
    (hcs : cs.map Solo.made = turns.filterMap Turn.made?) :
    let nested := after job turns
    let flat := after job (inTurn cs)
    AllReturned flat ∧ (∀ done, done <+: cs → (after job (inTurn done)).openCalls = []) ∧
      calls flat.past = calls nested.past ∧
      publications flat.past = publications nested.past ∧
      (∀ q, flat.session.answer job q = nested.session.answer job q) ∧
      ∀ use, (announcements use flat.past).length = (announcements use nested.past).length := by
  intro nested flat
  have halike : Alike nested flat := alike_inTurn job hcs
  have hnested : Reached job (fun _ => True) nested := reached_after job fun _ _ => trivial
  have hflat : Reached job (fun _ => True) flat := reached_after job fun _ _ => trivial
  have hunfailed := hasFailed_eq_false.mp hall.unfailed
  have hflat_all : AllReturned flat :=
    ⟨openCalls_inTurn job cs,
      hasFailed_eq_false.mpr fun n e he => hunfailed n e (halike.failed n e he)⟩
  refine ⟨hflat_all, fun done _ => openCalls_inTurn job done, halike.made, halike.published, ?_, ?_⟩
  · intro q
    obtain ⟨tally, startedAt, hsession⟩ := halike.session
    have hboard : flat.session.board = nested.session.board := by
      rw [hsession]
      rfl
    have htally : flat.session.tally = nested.session.tally := by
      refine Tally.ext_of fun s => ?_
      rw [hflat.tally s, hnested.tally s, hflat_all.returnedUnder_eq hflat.kept,
        hall.returnedUnder_eq hnested.kept, halike.made]
    cases q <;> simp [answer, hboard, htally]
  · intro use
    rw [hflat.length_announcements hflat_all.closed (hflat_all.unhindered use),
      hnested.length_announcements hall.closed (hall.unhindered use), firstFor_eq, firstFor_eq,
      halike.made]

theorem a_start_within_a_problem_comes_to_the_same :
    let job : Job := { target := ⟨"file:///t"⟩, name := "t", task := { id := "1" } }
    let p : Problem :=
      { severity := .warning, message := "unused", position := { file := some "/a" } }
    let turns : List Turn :=
      [⟨{}, .call (.problem .error p)⟩, ⟨{}, .call .start⟩, ⟨{}, .call (.visit "/a")⟩, ⟨{}, .back⟩,
        ⟨{}, .time 7⟩, ⟨{}, .back⟩, ⟨{}, .back⟩, ⟨{}, .back⟩]
    let cs : List Solo := [⟨{}, .problem .error p, 0⟩, ⟨{}, .start, 9⟩, ⟨{}, .visit "/a", 0⟩]
    let nested := after job turns
    let flat := after job (inTurn cs)
    AllReturned nested ∧ AllReturned flat ∧ publications flat.past = publications nested.past ∧
      (∀ q, flat.session.answer job q = nested.session.answer job q) ∧
      ∀ use, (announcements use flat.past).length = (announcements use nested.past).length := by
  intro job p turns cs nested flat
  have hall : AllReturned nested := ⟨by decide +kernel, by decide +kernel⟩
  have hcs : cs.map Solo.made = turns.filterMap Turn.made? := by decide +kernel
  obtain ⟨hflat, -, -, hpub, hanswer, hann⟩ :=
    nested_calls_come_to_the_same_as_calls_in_turn job hall hcs
  exact ⟨hall, hflat, hpub, hanswer, hann⟩

end BuildFeed.Session.Course
