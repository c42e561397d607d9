-- Two rehearsals side by side. Where two casts keep a relation between their posts, whatever they
-- are given, two stages that are abreast stay abreast: the session is the same on both, and so is
-- every value and every error. A moment that no interruption waits for may come on one of them
-- alone.
import BuildFeed.Proofs.Rehearsal.Courses

namespace BuildFeed.Rehearsal

open Session (Act Handover)

/-! ## What a session hands over -/

/-- Everything but a message of an error. A session hands over nothing else. -/
def Calm : Handover → Prop
  | .log .error _ => False
  | _ => True

def CalmActs (todo : List Act) : Prop := ∀ h, Act.hand h ∈ todo → Calm h

theorem CalmActs.tail {act : Act} {rest : List Act} (h : CalmActs (act :: rest)) :
    CalmActs rest :=
  fun handover hmem => h handover (List.mem_cons_of_mem _ hmem)

theorem calmActs_told (job : Job) (session : Session) (use : Session.TimeUse) (time : Number) :
    CalmActs (session.told job use time).2 := by
  intro h hmem
  rw [Session.told_acts] at hmem
  simp only [List.mem_cons, Act.hand.injEq, List.not_mem_nil, or_false] at hmem
  rcases hmem with rfl | rfl
  · trivial
  · trivial

theorem calmActs_begin {job : Job} {setup : Trace.Setup} {session : Session} {call : Session.Call}
    {todo : List Act} (h : (session.begin job setup call).result = .ok (.acts todo)) :
    CalmActs todo := by
  have hb := Session.begin_begins job setup session call
  rw [h] at hb
  generalize (session.begin job setup call).state = after at hb
  intro handover hmem
  cases hb with
  | ignored hu hfallen =>
    simp only [List.mem_singleton, Act.hand.injEq] at hmem
    subst hmem
    trivial
  | publishes hd =>
    rcases List.mem_cons.mp hmem with heq | hcounting
    · cases heq
      trivial
    · obtain ⟨severity, -, hcount⟩ := List.mem_map.mp hcounting
      cases hcount

/-! ## Stages abreast -/

section

variable (watched : Moment → Bool) (P : Post Diagnostic → Post Diagnostic → Prop)

/-- Two stages with the same session, on which every moment that is watched has come equally
often. -/
structure Abreast (s t : Stage) : Prop where
  session : s.session = t.session
  clock : s.clock = t.clock
  seen : ∀ m, watched m = true → s.seen.of m = t.seen.of m
  post : P s.post t.post

/-- The same was done on two stages: they are abreast, with the same value or error. -/
structure Alike {α : Type} (r r' : Result α) : Prop where
  stage : Abreast watched P r.1 r'.1
  result : r.2 = r'.2

/-- What happens at a moment that is watched is alike on both sides, and at any other nothing
happens. -/
structure AlikeAt (occur occur' : Occurrence) : Prop where
  both : ∀ m, watched m = true → ∀ s t, Abreast watched P s t →
    Alike watched P (occur m s) (occur' m t)
  left : ∀ m, watched m = false → ∀ s, occur m s = ({ s with seen := s.seen.add m }, .ok ())
  right : ∀ m, watched m = false → ∀ t, occur' m t = ({ t with seen := t.seen.add m }, .ok ())

end

/-- The marks of the clock and of the steps of interruptions. -/
def isSign : Event Diagnostic → Bool
  | .now _ => true
  | .called _ => true
  | .returned _ _ => true
  | _ => false

/-- Two casts with which a relation is kept between two posts, step by step. They see the same of
the world, and nothing that they come back with tells them apart but moments that are not watched.
Failed sends may be dealt with only if `drains` holds. -/
structure Tandem (watched : Moment → Bool) (drains : Prop)
    (P : Post Diagnostic → Post Diagnostic → Prop) (cast cast' : Cast) : Prop where
  job : cast.job = cast'.job
  wall : cast.setup.clock = cast'.setup.clock
  state : ∀ (session : Session) (call : Session.Call),
    (session.begin cast.job cast.setup call).state =
      (session.begin cast'.job cast'.setup call).state
  result : ∀ (session : Session) (call : Session.Call),
    (session.begin cast.job cast.setup call).result =
      (session.begin cast'.job cast'.setup call).result
  trace : ∀ (session : Session) (call : Session.Call) (p q : Post Diagnostic), P p q →
    P (p.markTraced (session.begin cast.job cast.setup call).written)
      (q.markTraced (session.begin cast'.job cast'.setup call).written)
  sign : ∀ (e : Event Diagnostic) (p q : Post Diagnostic), isSign e = true → P p q →
    P (p.mark e) (q.mark e)
  give : ∀ (h : Handover) (s t : Stage), Calm h → P s.post t.post →
    P (give cast h s).1.post (give cast' h t).1.post
  answer : ∀ (h : Handover) (s t : Stage),
    (Rehearsal.give cast h s).2.map (Option.filter watched) =
      (Rehearsal.give cast' h t).2.map (Option.filter watched)
  drain : ∀ p q : Post Diagnostic, drains → P p q → P (p.drain cast.logger) (q.drain cast'.logger)
  dispose : ∀ p q : Post Diagnostic, P p q →
    P { p with connection := p.connection.dispose } { q with connection := q.connection.dispose }

variable {watched : Moment → Bool} {drains : Prop} {P : Post Diagnostic → Post Diagnostic → Prop}
  {cast cast' : Cast} {occur occur' : Occurrence} {s t : Stage}

theorem Alike.split {α : Type} {r r' : Result α} (h : Alike watched P r r') :
    ∃ q q' result, r = (q, result) ∧ r' = (q', result) ∧ Abreast watched P q q' :=
  ⟨r.1, r'.1, r.2, rfl, Prod.ext rfl h.result.symm, h.stage⟩

/-- A moment has come on one side, if one has, and nothing happened. -/
theorem pass_of_unwatched (hocc : ∀ m, watched m = false → ∀ s,
      occur m s = ({ s with seen := s.seen.add m }, .ok ()))
    {moment : Option Moment} (hm : moment.filter watched = none) (s : Stage) :
    ∃ seen : Seen, pass occur s moment = ({ s with seen }, .ok ()) ∧
      ∀ k, watched k = true → seen.of k = s.seen.of k := by
  cases moment with
  | none => exact ⟨s.seen, rfl, fun k hk => rfl⟩
  | some m =>
    have hun : watched m = false := by simpa [Option.filter] using hm
    refine ⟨s.seen.add m, hocc m hun s, fun k hk => ?_⟩
    have hne : m ≠ k := by
      rintro rfl
      rw [hk] at hun
      cases hun
    rw [Seen.of_add, if_neg hne, Nat.add_zero]

theorem pass_alike (hocc : AlikeAt watched P occur occur') (h : Abreast watched P s t)
    {m m' : Option Moment} (hm : m.filter watched = m'.filter watched) :
    Alike watched P (pass occur s m) (pass occur' t m') := by
  cases hfiltered : m.filter watched with
  | none =>
    obtain ⟨seen, hpass, hseen⟩ := pass_of_unwatched hocc.left hfiltered s
    obtain ⟨seen', hpass', hseen'⟩ := pass_of_unwatched hocc.right (hm ▸ hfiltered) t
    rw [hpass, hpass']
    refine ⟨⟨h.session, h.clock, fun k hk => ?_, h.post⟩, rfl⟩
    exact (hseen k hk).trans ((h.seen k hk).trans (hseen' k hk).symm)
  | some k =>
    obtain ⟨hk, hwatched⟩ := Option.filter_eq_some_iff.mp hfiltered
    obtain ⟨hk', -⟩ := Option.filter_eq_some_iff.mp (hm ▸ hfiltered)
    rw [hk, hk']
    exact hocc.both k hwatched s t h

/-! ## Calls -/

theorem give_stage (cast : Cast) (h : Handover) (s : Stage) :
    (give cast h s).1 = { s with post := (give cast h s).1.post } := by
  unfold give
  split
  · rfl
  · split
    · rfl
    · rfl

/-- What handing something over comes back with does not depend on the stage. -/
theorem give_answer (cast : Cast) (h : Handover) (s t : Stage) :
    (give cast h s).2 = (give cast h t).2 := by
  unfold give
  split
  · rfl
  · split
    · rfl
    · unfold Post.notify
      simp only
      split
      · rfl
      · rfl

theorem give_abreast (ht : Tandem watched drains P cast cast') (h : Abreast watched P s t)
    {handover : Handover} (hcalm : Calm handover) :
    Abreast watched P (give cast handover s).1 (give cast' handover t).1 := by
  rw [give_stage cast, give_stage cast']
  exact ⟨h.session, h.clock, h.seen, ht.give _ _ _ hcalm h.post⟩

theorem handOver_eq (cast : Cast) (occur : Occurrence) (handover : Handover) (s : Stage) :
    handOver cast occur handover s =
      match (give cast handover s).2 with
      | .error e => ((give cast handover s).1, .error e)
      | .ok m => pass occur (give cast handover s).1 m := by
  unfold handOver
  rcases give cast handover s with ⟨r, e | m | m⟩
  · rfl
  · rfl
  · rfl

theorem handOver_alike (ht : Tandem watched drains P cast cast')
    (hocc : AlikeAt watched P occur occur') (h : Abreast watched P s t) {handover : Handover}
    (hcalm : Calm handover) :
    Alike watched P (handOver cast occur handover s) (handOver cast' occur' handover t) := by
  have hgiven := give_abreast ht h hcalm
  have hanswer := ht.answer handover s t
  rw [handOver_eq, handOver_eq]
  generalize (give cast handover s).2 = result at hanswer ⊢
  generalize (give cast' handover t).2 = result' at hanswer ⊢
  cases result with
  | error e =>
    cases result' with
    | error e' =>
      cases hanswer
      exact ⟨hgiven, rfl⟩
    | ok m' => cases hanswer
  | ok m =>
    cases result' with
    | error e' => cases hanswer
    | ok m' => exact pass_alike hocc hgiven (Except.ok.inj hanswer)

theorem finishActs_alike (ht : Tandem watched drains P cast cast')
    (hocc : AlikeAt watched P occur occur') {todo : List Act} (hcalm : CalmActs todo)
    (h : Abreast watched P s t) :
    Alike watched P (finishActs cast occur todo s) (finishActs cast' occur' todo t) := by
  induction todo generalizing s t with
  | nil => exact ⟨h, rfl⟩
  | cons act rest ih =>
    cases act with
    | count severity =>
      unfold finishActs
      exact ih hcalm.tail
        ⟨congrArg (Session.counted severity) h.session, h.clock, h.seen, h.post⟩
    | hand handover =>
      unfold finishActs
      obtain ⟨r, r', result, hr, hr', hstage⟩ :=
        (handOver_alike ht hocc h (hcalm handover List.mem_cons_self)).split
      rw [hr, hr']
      cases result with
      | error e => exact ⟨hstage, rfl⟩
      | ok done => exact ih hcalm.tail hstage

theorem readClock_abreast (ht : Tandem watched drains P cast cast') (h : Abreast watched P s t) :
    (readClock cast s).1 = (readClock cast' t).1 ∧
      Abreast watched P (readClock cast s).2.1 (readClock cast' t).2.1 ∧
      (readClock cast s).2.2 = (readClock cast' t).2.2 := by
  unfold readClock
  simp only [h.clock, ht.wall]
  split
  · exact ⟨rfl, ⟨h.session, rfl, h.seen, h.post⟩, rfl⟩
  · exact ⟨rfl, ⟨h.session, rfl, h.seen, ht.sign _ _ _ rfl h.post⟩, rfl⟩

theorem goOn_alike (ht : Tandem watched drains P cast cast')
    (hocc : AlikeAt watched P occur occur') (use : Session.TimeUse) (time : Number)
    {r r' : Result Unit} (h : Alike watched P r r') :
    Alike watched P (goOn cast occur use time r) (goOn cast' occur' use time r') := by
  obtain ⟨s, t, result, rfl, rfl, hstage⟩ := h.split
  cases result with
  | error e => exact ⟨hstage, rfl⟩
  | ok done =>
    unfold goOn
    have hsession : s.session = t.session := hstage.session
    simp only [hsession, ht.job]
    exact finishActs_alike ht hocc (calmActs_told _ _ use time)
      ⟨rfl, hstage.clock, hstage.seen, hstage.post⟩

theorem makeCall_alike (ht : Tandem watched drains P cast cast')
    (hocc : AlikeAt watched P occur occur') (call : Session.Call) (h : Abreast watched P s t) :
    Alike watched P (makeCall cast occur call s) (makeCall cast' occur' call t) := by
  have hbegan : Abreast watched P
      ({ s with session := (t.session.begin cast.job cast.setup call).state }.markTraced
        (t.session.begin cast.job cast.setup call).written)
      ({ t with session := (t.session.begin cast'.job cast'.setup call).state }.markTraced
        (t.session.begin cast'.job cast'.setup call).written) :=
    ⟨ht.state t.session call, h.clock, h.seen, ht.trace t.session call _ _ h.post⟩
  unfold makeCall
  simp only [h.session, ht.result t.session call]
  cases hr : (t.session.begin cast'.job cast'.setup call).result with
  | error e => exact ⟨hbegan, rfl⟩
  | ok plan =>
    cases plan with
    | acts todo => exact finishActs_alike ht hocc (calmActs_begin hr) hbegan
    | askTime use =>
      obtain ⟨htime, hread, hmoment⟩ := readClock_abreast ht hbegan
      simp only [finishPlan_askTime]
      rw [htime]
      exact goOn_alike ht hocc use _ (pass_alike hocc hread (congrArg _ hmoment))

/-! ## Steps and interruptions -/

theorem doStep_alike (ht : Tandem watched drains P cast cast')
    (hocc : AlikeAt watched P occur occur') {step : Step} (hstep : step = .drain → drains)
    (h : Abreast watched P s t) :
    Alike watched P (doStep cast occur step s) (doStep cast' occur' step t) := by
  cases step with
  | call c =>
    have hmade := makeCall_alike ht hocc c h
    exact ⟨hmade.stage, congrArg (Except.map fun _ => Session.Answer.nothing) hmade.result⟩
  | ask q =>
    refine ⟨h, ?_⟩
    unfold doStep
    rw [h.session, ht.job]
  | drain => exact ⟨⟨h.session, h.clock, h.seen, ht.drain _ _ (hstep rfl) h.post⟩, rfl⟩
  | dispose => exact ⟨⟨h.session, h.clock, h.seen, ht.dispose _ _ h.post⟩, rfl⟩

theorem mark_abreast (ht : Tandem watched drains P cast cast') {e : Event Diagnostic}
    (he : isSign e = true) (h : Abreast watched P s t) :
    Abreast watched P (s.mark e) (t.mark e) :=
  ⟨h.session, h.clock, h.seen, ht.sign _ _ _ he h.post⟩

theorem doSteps_alike (ht : Tandem watched drains P cast cast')
    (hocc : AlikeAt watched P occur occur') {steps : List Step}
    (hsteps : .drain ∈ steps → drains) (h : Abreast watched P s t) :
    Alike watched P (doSteps cast occur steps s) (doSteps cast' occur' steps t) := by
  induction steps generalizing s t with
  | nil => exact ⟨h, rfl⟩
  | cons step rest ih =>
    have hstep : step = .drain → drains := by
      rintro rfl
      exact hsteps List.mem_cons_self
    have hcalled : Abreast watched P (s.mark (.called step.name)) (t.mark (.called step.name)) :=
      mark_abreast ht rfl h
    obtain ⟨r, r', result, hr, hr', hstage⟩ := (doStep_alike ht hocc hstep hcalled).split
    unfold doSteps
    rw [hr, hr']
    cases result with
    | error e => exact ⟨hstage, rfl⟩
    | ok answer =>
      exact ih (fun hmem => hsteps (List.mem_cons_of_mem _ hmem)) (mark_abreast ht rfl hstage)

/-- An interruption that waits for a moment that is watched, and deals with failed sends only where
that may be done. -/
def Admitted (watched : Moment → Bool) (drains : Prop) (interruptions : List Interruption) : Prop :=
  ∀ i ∈ interruptions, watched i.moment = true ∧ (.drain ∈ i.steps → drains)

theorem interrupt_of_unwatched {m : Moment} (hm : watched m = false) (cast : Cast)
    (occur : List Interruption → Occurrence) (before : List Interruption)
    {after : List Interruption} (hafter : Admitted watched drains after) (s : Stage) :
    interrupt cast occur m before after s = (s, .ok ()) := by
  induction after generalizing before with
  | nil => rfl
  | cons i rest ih =>
    have hne : i.moment ≠ m := by
      intro heq
      have hwatched := (hafter i List.mem_cons_self).1
      rw [heq, hm] at hwatched
      cases hwatched
    unfold interrupt
    rw [if_neg fun h => hne h.1]
    exact ih _ fun j hj => hafter j (List.mem_cons_of_mem _ hj)

theorem interrupt_alike (ht : Tandem watched drains P cast cast')
    {occur occur' : List Interruption → Occurrence}
    (hocc : ∀ others, Admitted watched drains others →
      AlikeAt watched P (occur others) (occur' others))
    {m : Moment} (hm : watched m = true) {before after : List Interruption}
    (hall : Admitted watched drains (before ++ after)) (h : Abreast watched P s t) :
    Alike watched P (interrupt cast occur m before after s)
      (interrupt cast' occur' m before after t) := by
  induction after generalizing before s t with
  | nil => exact ⟨h, rfl⟩
  | cons i rest ih =>
    have hnext : Admitted watched drains (before ++ [i] ++ rest) := by simpa using hall
    have hothers : Admitted watched drains (before ++ rest) := by
      intro j hj
      refine hall j ?_
      rcases List.mem_append.mp hj with hj | hj
      · exact List.mem_append_left _ hj
      · exact List.mem_append_right _ (List.mem_cons_of_mem _ hj)
    unfold interrupt
    rw [h.seen m hm]
    by_cases hset : i.moment = m ∧ i.nth = t.seen.of m
    · rw [if_pos hset, if_pos hset]
      obtain ⟨r, r', result, hr, hr', hstage⟩ :=
        (doSteps_alike ht (hocc _ hothers) (hall i (by simp)).2 h).split
      rw [hr, hr']
      cases result with
      | error e => exact ⟨hstage, rfl⟩
      | ok done =>
        cases i.raises with
        | some message => exact ⟨hstage, rfl⟩
        | none => exact ih hnext hstage
    · rw [if_neg hset, if_neg hset]
      exact ih hnext h

/-- By induction on how many interruptions can set in within one another. -/
theorem occurWithin_alike (ht : Tandem watched drains P cast cast') (depth : Nat)
    {interruptions : List Interruption} (hall : Admitted watched drains interruptions) :
    AlikeAt watched P (occurWithin cast depth interruptions)
      (occurWithin cast' depth interruptions) := by
  have hcome : ∀ (m : Moment) (s t : Stage), Abreast watched P s t →
      Abreast watched P { s with seen := s.seen.add m } { t with seen := t.seen.add m } := by
    intro m s t h
    refine ⟨h.session, h.clock, fun k hk => ?_, h.post⟩
    rw [Seen.of_add, Seen.of_add, h.seen k hk]
  induction depth generalizing interruptions with
  | zero => exact ⟨fun m _ s t h => ⟨hcome m s t h, rfl⟩, fun m _ s => rfl, fun m _ t => rfl⟩
  | succ depth ih =>
    refine ⟨fun m hm s t h => ?_, fun m hm s => ?_, fun m hm t => ?_⟩
    · exact interrupt_alike ht (fun others hothers => ih hothers) hm hall (hcome m s t h)
    · exact interrupt_of_unwatched hm cast _ [] hall _
    · exact interrupt_of_unwatched hm cast' _ [] hall _

theorem occur_alike (ht : Tandem watched drains P cast cast') {interruptions : List Interruption}
    (hall : Admitted watched drains interruptions) :
    AlikeAt watched P (Rehearsal.occur cast interruptions)
      (Rehearsal.occur cast' interruptions) :=
  occurWithin_alike ht interruptions.length hall

end BuildFeed.Rehearsal
