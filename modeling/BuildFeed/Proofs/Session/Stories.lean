-- The story of each call. What a call has been through so far decides what it waits for, and a call
-- that no longer waits has ended. Every step keeps this, however deep the calls stand in one
-- another, so each move of the collaborators is one of the steps or changes nothing.
import Mathlib.Data.List.Induction
import BuildFeed.Proofs.Session.Steps

namespace BuildFeed.Session

/-- The number of the call that an occasion is about. -/
def Occasion.number : Occasion → Nat
  | .began n _ => n
  | .askedTime n => n
  | .toldTime n _ => n
  | .handed n _ => n
  | .cameBack n => n
  | .returned n => n
  | .failed n _ => n

/-- All that happened to the call of one number. -/
def story (n : Nat) (past : List Occasion) : List Occasion := past.filter (fun o => o.number = n)

theorem mem_story {n : Nat} {past : List Occasion} {o : Occasion} :
    o ∈ story n past ↔ o ∈ past ∧ o.number = n := by
  simp [story]

theorem story_append_of_eq {n : Nat} {past es : List Occasion} (h : ∀ e ∈ es, e.number = n) :
    story n (past ++ es) = story n past ++ es := by
  have hall : es.filter (fun o => o.number = n) = es :=
    List.filter_eq_self.mpr fun e he => decide_eq_true (h e he)
  unfold story
  rw [List.filter_append, hall]

theorem story_append_of_ne {k n : Nat} {past es : List Occasion} (h : ∀ e ∈ es, e.number = n)
    (hk : k ≠ n) : story k (past ++ es) = story k past := by
  have hnone : es.filter (fun o => o.number = k) = [] := by
    rw [List.filter_eq_nil_iff]
    intro e he heq
    exact hk ((of_decide_eq_true heq).symm.trans (h e he))
  unfold story
  rw [List.filter_append, hnone, List.append_nil]

theorem story_of_lt {n : Nat} {past : List Occasion} (h : ∀ o ∈ past, o.number < n) :
    story n past = [] := by
  unfold story
  rw [List.filter_eq_nil_iff]
  intro o ho heq
  exact absurd (of_decide_eq_true heq) (Nat.ne_of_lt (h o ho))

namespace Course

/-! ## What a call has been through -/

/-- What a call has been through while it waits for something. -/
inductive Waits (job : Job) (n : Nat) (call : Call) : Awaited → List Occasion → Prop
  | time {use : TimeUse} (hu : call.use? = some use) :
      Waits job n call (.time use) [.began n call, .askedTime n]
  | line {use : TimeUse} {t : Number} {line : String} {notice : Notice Diagnostic}
      (hu : call.use? = some use) (hn : announced? notice = some (use, t)) :
      Waits job n call (.back (.log .info line) [.hand (.notify notice)])
        [.began n call, .askedTime n, .toldTime n t, .handed n (.log .info line)]
  | notice {use : TimeUse} {t : Number} {line : String} {notice : Notice Diagnostic}
      (hu : call.use? = some use) (hn : announced? notice = some (use, t)) :
      Waits job n call (.back (.notify notice) call.countings)
        [.began n call, .askedTime n, .toldTime n t, .handed n (.log .info line), .cameBack n,
          .handed n (.notify notice)]
  | refusal {use : TimeUse} (hu : call.use? = some use) :
      Waits job n call (.back (.log .log (refusal job use)) call.countings)
        [.began n call, .handed n (.log .log (Session.refusal job use))]
  | publication {doc : Document} {p : Publish Diagnostic}
      (hd : call.document? job = some (.ok doc)) (hp : p.document = doc) :
      Waits job n call (.back (.notify (.publish p)) call.countings)
        [.began n call, .handed n (.notify (.publish p))]

/-- What a call has been through when it has ended: it returned, it failed while it waited, or it
was refused at once. -/
inductive Ended (job : Job) (n : Nat) (call : Call) : List Occasion → Prop
  | returned {h : Handover} {es : List Occasion}
      (hw : Waits job n call (.back h call.countings) es) :
      Ended job n call (es ++ [.cameBack n, .returned n])
  | failed {a : Awaited} {es : List Occasion} {e : Fault} (hw : Waits job n call a es) :
      Ended job n call (es ++ [.failed n e])
  | refused {e : Fault} (hu : call.use? = none) :
      Ended job n call [.began n call, .failed n e]

/-- The calls have numbers of their own, those that are open wait for what they have come to, and
all others have ended. -/
structure Kept (job : Job) (c : Course) : Prop where
  past_lt : ∀ o ∈ c.past, o.number < c.begun
  open_lt : ∀ o ∈ c.openCalls, o.number < c.begun
  distinct : (c.openCalls.map (·.number)).Nodup
  waits : ∀ o ∈ c.openCalls, Waits job o.number o.call o.awaited (story o.number c.past)
  ended : ∀ n < c.begun, n ∉ c.openCalls.map (·.number) →
    ∃ call, Ended job n call (story n c.past)

/-- Nothing has happened in a new course. -/
theorem kept_fresh (job : Job) : Kept job {} where
  past_lt := by simp
  open_lt := by simp
  distinct := by simp
  waits := by simp
  ended := by simp

/-- One call has its turn: something more happens to it, and then it waits again or has ended. The
call is new, or it is the innermost one that is open. -/
theorem Kept.turn {job : Job} {c : Course} (h : Kept job c) {session : Session} {n begun : Nat}
    {es : List Occasion} {now rest : List OpenCall}
    (hes : ∀ e ∈ es, e.number = n)
    (hcall : (begun = c.begun + 1 ∧ n = c.begun ∧ rest = c.openCalls) ∨
      (begun = c.begun ∧ ∃ o, c.openCalls = o :: rest ∧ o.number = n))
    (hnow : (now = [] ∧ ∃ call, Ended job n call (story n c.past ++ es)) ∨
      ∃ call a, now = [⟨n, call, a⟩] ∧ Waits job n call a (story n c.past ++ es)) :
    Kept job { session, openCalls := now ++ rest, begun, past := c.past ++ es } := by
  have hsub : ∀ o ∈ rest, o ∈ c.openCalls := by
    rcases hcall with ⟨-, -, rfl⟩ | ⟨-, o, ho, -⟩
    · exact fun o ho => ho
    · exact fun o' ho' => ho ▸ List.mem_cons_of_mem _ ho'
  have hdistinct : (n :: rest.map (·.number)).Nodup := by
    rcases hcall with ⟨-, rfl, rfl⟩ | ⟨-, o, ho, rfl⟩
    · refine List.nodup_cons.mpr ⟨fun hn => ?_, h.distinct⟩
      obtain ⟨o, ho, heq⟩ := List.mem_map.mp hn
      exact absurd heq (Nat.ne_of_lt (h.open_lt o ho))
    · have := h.distinct
      rwa [ho] at this
  have hlt : c.begun ≤ begun ∧ n < begun := by
    rcases hcall with ⟨rfl, rfl, -⟩ | ⟨rfl, o, ho, rfl⟩
    · omega
    · exact ⟨Nat.le_refl _, h.open_lt o (ho ▸ List.mem_cons_self)⟩
  have hne : ∀ o ∈ rest, o.number ≠ n := by
    intro o ho heq
    exact (List.nodup_cons.mp hdistinct).1 (List.mem_map.mpr ⟨o, ho, heq⟩)
  have hnow_number : ∀ o ∈ now, o.number = n := by
    rcases hnow with ⟨rfl, -⟩ | ⟨call, a, rfl, -⟩
    · simp
    · simp
  refine ⟨?_, ?_, ?_, ?_, ?_⟩
  · intro o ho
    rcases List.mem_append.mp ho with ho | ho
    · exact Nat.lt_of_lt_of_le (h.past_lt o ho) hlt.1
    · exact hes o ho ▸ hlt.2
  · intro o ho
    rcases List.mem_append.mp ho with ho | ho
    · exact hnow_number o ho ▸ hlt.2
    · exact Nat.lt_of_lt_of_le (h.open_lt o (hsub o ho)) hlt.1
  · rcases hnow with ⟨rfl, -⟩ | ⟨call, a, rfl, -⟩
    · exact (List.nodup_cons.mp hdistinct).2
    · exact hdistinct
  · intro o ho
    rcases List.mem_append.mp ho with ho | ho
    · rcases hnow with ⟨rfl, -⟩ | ⟨call, a, rfl, hw⟩
      · simp at ho
      · rw [List.mem_singleton.mp ho, story_append_of_eq hes]
        exact hw
    · rw [story_append_of_ne hes (hne o ho)]
      exact h.waits o (hsub o ho)
  · intro k hk hnot
    simp only at hk hnot
    rw [List.map_append, List.mem_append, not_or] at hnot
    by_cases hkn : k = n
    · subst hkn
      rw [story_append_of_eq hes]
      rcases hnow with ⟨-, hend⟩ | ⟨call, a, rfl, -⟩
      · exact hend
      · simp at hnot
    · rw [story_append_of_ne hes hkn]
      refine h.ended k ?_ ?_
      · rcases hcall with ⟨rfl, rfl, -⟩ | ⟨rfl, -⟩
        · omega
        · exact hk
      · rcases hcall with ⟨-, -, rfl⟩ | ⟨-, o, ho, rfl⟩
        · exact hnot.2
        · rw [ho, List.map_cons, List.mem_cons, not_or]
          exact ⟨hkn, hnot.2⟩

/-- Every step keeps the stories in order. -/
theorem Step.kept {job : Job} {setup : Trace.Setup} {c d : Course} (hs : Step job setup c d)
    (h : Kept job c) : Kept job d := by
  have hnew : story c.begun c.past = [] := story_of_lt h.past_lt
  cases hs with
  | @refused call e board hu hb =>
    refine h.turn (by simp [Occasion.number]) (.inl ⟨rfl, rfl, rfl⟩) (.inl ⟨rfl, call, ?_⟩)
    rw [hnew]
    exact .refused hu
  | asked hu hup =>
    refine h.turn (by simp [Occasion.number]) (.inl ⟨rfl, rfl, rfl⟩) (.inr ⟨_, _, rfl, ?_⟩)
    rw [hnew]
    exact .time hu
  | ignored hu hfallen =>
    refine h.turn (by simp [Occasion.number]) (.inl ⟨rfl, rfl, rfl⟩) (.inr ⟨_, _, rfl, ?_⟩)
    rw [hnew]
    exact .refusal hu
  | published hd hp =>
    refine h.turn (by simp [Occasion.number]) (.inl ⟨rfl, rfl, rfl⟩) (.inr ⟨_, _, rfl, ?_⟩)
    rw [hnew]
    exact .publication hd (by rw [hp]; rfl)
  | told ho =>
    refine h.turn (by simp [Occasion.number]) (.inr ⟨rfl, _, ho, rfl⟩) (.inr ⟨_, _, rfl, ?_⟩)
    have hw := h.waits _ (ho ▸ List.mem_cons_self)
    generalize story _ c.past = es at hw ⊢
    cases hw with
    | time hu => exact .line hu (announced?_noticeFor ..)
  | announced ho =>
    refine h.turn (by simp [Occasion.number]) (.inr ⟨rfl, _, ho, rfl⟩) (.inr ⟨_, _, rfl, ?_⟩)
    have hw := h.waits _ (ho ▸ List.mem_cons_self)
    generalize story _ c.past = es at hw ⊢
    cases hw with
    | line hu hn => exact .notice hu hn
  | @returned n call handover rest ho =>
    refine h.turn (by simp [Occasion.number]) (.inr ⟨rfl, _, ho, rfl⟩) (.inl ⟨rfl, call, ?_⟩)
    exact .returned (h.waits _ (ho ▸ List.mem_cons_self))
  | @failed o rest e ho =>
    refine h.turn (by simp [Occasion.number]) (.inr ⟨rfl, _, ho, rfl⟩) (.inl ⟨rfl, o.call, ?_⟩)
    exact .failed (h.waits _ (ho ▸ List.mem_cons_self))

/-! ## Moves are steps -/

theorem step_of_call (job : Job) (setup : Trace.Setup) (c : Course) (call : Call) :
    Step job setup c (c.move job setup (.call call)) := by
  have hb := begin_begins job setup c.session call
  generalize hs : (c.session.begin job setup call).state = s at hb
  generalize hr : (c.session.begin job setup call).result = result at hb
  cases hb with
  | asks hu hup =>
    rw [move_call_of_askTime hs hr]
    exact .asked hu hup
  | ignored hu hfallen =>
    rw [move_call_of_hand hs hr, ← countings_of_use hu]
    exact .ignored hu hfallen
  | publishes hd =>
    rw [move_call_of_hand hs hr]
    exact .published hd rfl
  | fails hu hb =>
    rw [move_call_of_error hs hr]
    exact .refused hu hb

/-- Where the stories are in order, a move is a step or changes nothing. -/
theorem Kept.move {job : Job} {c : Course} (h : Kept job c) (setup : Trace.Setup) (m : Move) :
    c.move job setup m = c ∨ Step job setup c (c.move job setup m) := by
  cases m with
  | call call => exact .inr (step_of_call job setup c call)
  | time t =>
    rcases ho : c.openCalls with _ | ⟨⟨n, call, use | ⟨handover, todo⟩⟩, rest⟩
    · exact .inl (move_of_idle ho (by simp))
    · right
      rw [move_time ho]
      exact .told ho
    · exact .inl (move_time_of_back ho t)
  | back =>
    rcases ho : c.openCalls with _ | ⟨⟨n, call, use | ⟨handover, todo⟩⟩, rest⟩
    · exact .inl (move_of_idle ho (by simp))
    · exact .inl (move_back_of_time ho)
    · right
      -- what the call has been through tells what it still has to do
      have hw := h.waits _ (ho ▸ List.mem_cons_self)
      simp only at hw
      generalize story n c.past = es at hw
      cases hw with
      | line hu hn =>
        rw [move_back_of_hand ho, ← countings_of_use hu]
        exact .announced ho
      | notice hu hn =>
        rw [move_back_of_countings ho]
        exact .returned ho
      | refusal hu =>
        rw [move_back_of_countings ho]
        exact .returned ho
      | publication hd hp =>
        rw [move_back_of_countings ho]
        exact .returned ho
  | raise e =>
    rcases ho : c.openCalls with _ | ⟨o, rest⟩
    · exact .inl (move_of_idle ho (by simp))
    · right
      rw [move_raise ho]
      exact .failed ho

/-- The courses to which steps lead from a new session, where the world that trace calls see is as
it should be at each step. -/
inductive Reached (job : Job) (ok : Trace.Setup → Prop) : Course → Prop
  | fresh : Reached job ok {}
  | step {c d : Course} {setup : Trace.Setup} (h : Reached job ok c) (hok : ok setup)
      (hs : Step job setup c d) : Reached job ok d

theorem Reached.kept {job : Job} {ok : Trace.Setup → Prop} {c : Course} (h : Reached job ok c) :
    Kept job c := by
  induction h with
  | fresh => exact kept_fresh job
  | step _ _ hs ih => exact hs.kept ih

/-! ## The story of each call -/

theorem Waits.began_iff {job : Job} {n : Nat} {call : Call} {a : Awaited} {es : List Occasion}
    (hw : Waits job n call a es) (other : Call) : .began n other ∈ es ↔ other = call := by
  cases hw <;> simp

theorem Ended.began_iff {job : Job} {n : Nat} {call : Call} {es : List Occasion}
    (he : Ended job n call es) (other : Call) : .began n other ∈ es ↔ other = call := by
  cases he with
  | returned hw => simp [hw.began_iff other]
  | failed hw => simp [hw.began_iff other]
  | refused hu => simp

/-- What can have happened to a call: it waits, or it has ended. -/
def Story (job : Job) (n : Nat) (call : Call) (es : List Occasion) : Prop :=
  (∃ a, Waits job n call a es) ∨ Ended job n call es

theorem Kept.story_of_lt {job : Job} {c : Course} (h : Kept job c) {n : Nat} (hn : n < c.begun) :
    ∃ call, .began n call ∈ c.past ∧ Story job n call (story n c.past) := by
  by_cases hopen : n ∈ c.openCalls.map (·.number)
  · obtain ⟨o, ho, rfl⟩ := List.mem_map.mp hopen
    have hw := h.waits o ho
    exact ⟨o.call, (mem_story.mp ((hw.began_iff o.call).mpr rfl)).1, .inl ⟨_, hw⟩⟩
  · obtain ⟨call, he⟩ := h.ended n hn hopen
    exact ⟨call, (mem_story.mp ((he.began_iff call).mpr rfl)).1, .inr he⟩

/-- A call that has begun is still open and waits, or it has ended. -/
theorem Kept.open_or_ended {job : Job} {c : Course} (h : Kept job c) {n : Nat} {call : Call}
    (hb : .began n call ∈ c.past) :
    (n ∈ c.openCalls.map (·.number) ∧ ∃ a, Waits job n call a (story n c.past)) ∨
      (n ∉ c.openCalls.map (·.number) ∧ Ended job n call (story n c.past)) := by
  have hmem : .began n call ∈ story n c.past := mem_story.mpr ⟨hb, rfl⟩
  by_cases hopen : n ∈ c.openCalls.map (·.number)
  · left
    refine ⟨hopen, ?_⟩
    obtain ⟨o, ho, rfl⟩ := List.mem_map.mp hopen
    have hw := h.waits o ho
    rw [(hw.began_iff call).mp hmem]
    exact ⟨_, hw⟩
  · right
    refine ⟨hopen, ?_⟩
    obtain ⟨first, he⟩ := h.ended n (h.past_lt _ hb) hopen
    rw [(he.began_iff call).mp hmem]
    exact he

theorem Kept.story_of_began {job : Job} {c : Course} (h : Kept job c) {n : Nat} {call : Call}
    (hb : .began n call ∈ c.past) : Story job n call (story n c.past) := by
  rcases h.open_or_ended hb with ⟨-, hw⟩ | ⟨-, he⟩
  · exact .inl hw
  · exact .inr he

/-! ## Turns -/

/-- A move, and the world that trace calls see while it is made. -/
structure Turn where
  setup : Trace.Setup
  move : Move

/-- The course that a list of moves takes from a new session while the world changes with them. -/
def after (job : Job) (turns : List Turn) : Course :=
  turns.foldl (fun c t => c.move job t.setup t.move) {}

theorem after_append_singleton (job : Job) (turns : List Turn) (t : Turn) :
    after job (turns ++ [t]) = (after job turns).move job t.setup t.move := by
  simp [after]

/-- In a world that does not change, the turns are the moves alone. -/
theorem run_eq_after (job : Job) (setup : Trace.Setup) (moves : List Move) :
    run job setup moves = after job (moves.map (Turn.mk setup)) := by
  simp [run, after, List.foldl_map]

theorem Reached.move {job : Job} {ok : Trace.Setup → Prop} {c : Course} (h : Reached job ok c)
    {setup : Trace.Setup} (hok : ok setup) (m : Move) : Reached job ok (c.move job setup m) := by
  rcases h.kept.move setup m with hsame | hs
  · rwa [hsame]
  · exact .step h hok hs

/-- Whatever the collaborators do, the course that it takes is reached by steps. -/
theorem reached_after (job : Job) {ok : Trace.Setup → Prop} {turns : List Turn}
    (hok : ∀ t ∈ turns, ok t.setup) : Reached job ok (after job turns) := by
  induction turns using List.reverseRecOn with
  | nil => exact .fresh
  | append_singleton turns t ih =>
    rw [after_append_singleton]
    have hlast := hok t (List.mem_append_right _ List.mem_cons_self)
    exact (ih fun t' ht' => hok t' (List.mem_append_left _ ht')).move hlast t.move

end Course

end BuildFeed.Session
