-- Start and finish, each at most once. The first call that is for a start goes through: it asks for
-- the time, writes a line and notifies the client, as far as the collaborators let it. All later
-- ones find the latch fallen, whatever has become of the first, and only say so in the log.
import Mathlib.Data.List.Basic
import BuildFeed.Proofs.Session.Stories

namespace BuildFeed.Session

/-! ## What can be seen of a start or a finish -/

/-- The notification of a start, or of a finish, that an occasion is, if it is one. -/
def announcement? (use : TimeUse) : Occasion → Option (Notice Diagnostic)
  | .handed _ (.notify notice) =>
    if (announced? notice).map Prod.fst = some use then some notice else none
  | _ => none

/-- The notifications of a start, or of a finish, that the client was given. -/
def announcements (use : TimeUse) (past : List Occasion) : List (Notice Diagnostic) :=
  past.filterMap (announcement? use)

/-- The number of the call that an occasion begins, if that call is for a start, or for a finish. -/
def beginning? (use : TimeUse) : Occasion → Option Nat
  | .began n call => if call.use? = some use then some n else none
  | _ => none

/-- The number of the first call to begin that is for a start, or for a finish. -/
def firstFor (use : TimeUse) (past : List Occasion) : Option Nat := past.findSome? (beginning? use)

/-- What an occasion hands over, if it does. -/
def handover? : Occasion → Option Handover
  | .handed _ h => some h
  | _ => none

/-- All that was handed to the logger and to the client. -/
def handovers (es : List Occasion) : List Handover := es.filterMap handover?

/-- The logger has come back to the call of a number from a line at level info, in the story of that
call. -/
def LineBack (n : Nat) (es : List Occasion) : Prop :=
  ∃ line, [.handed n (.log .info line), .cameBack n] <:+: es

/-! ## What becomes of one call -/

/-- What becomes of a call that is for a start or a finish, as its story tells: it is turned away,
it is stopped before it can notify the client, or it notifies the client. -/
inductive Fate (job : Job) (n : Nat) (use : TimeUse) (es : List Occasion) : Prop
  | turnedAway (ha : .askedTime n ∉ es) (hn : ∀ k, announcements k es = [])
      (hh : handovers es = [.log .log (refusal job use)])
  | stopped (ha : .askedTime n ∈ es) (hn : ∀ k, announcements k es = []) (hl : ¬ LineBack n es)
  | announced {t : Number} {notice : Notice Diagnostic} (ha : .askedTime n ∈ es)
      (hn : ∀ k, announcements k es = if k = use then [notice] else [])
      (hnotice : announced? notice = some (use, t)) (hl : LineBack n es)
      (ht : ∀ t', .toldTime n t' ∈ es ↔ t' = t)

/-- What happens when a call ends does not change its fate. -/
theorem Fate.append {job : Job} {n : Nat} {use : TimeUse} {es more : List Occasion}
    (h : Fate job n use es)
    (hmore : ∀ e ∈ more, handover? e = none ∧ e ≠ .askedTime n ∧ ∀ t, e ≠ .toldTime n t)
    (hl : LineBack n (es ++ more) → LineBack n es) : Fate job n use (es ++ more) := by
  have hhand : handovers (es ++ more) = handovers es := by
    have hnone : more.filterMap handover? = [] :=
      List.filterMap_eq_nil_iff.mpr fun e he => (hmore e he).1
    rw [handovers, List.filterMap_append, hnone, List.append_nil]
    rfl
  have hann : ∀ k, announcements k (es ++ more) = announcements k es := by
    intro k
    have hnone : more.filterMap (announcement? k) = [] := by
      rw [List.filterMap_eq_nil_iff]
      intro e he
      have := (hmore e he).1
      cases e <;> first | rfl | cases this
    rw [announcements, List.filterMap_append, hnone, List.append_nil]
    rfl
  have hasked : .askedTime n ∈ es ++ more ↔ .askedTime n ∈ es := by
    rw [List.mem_append, or_iff_left]
    exact fun hm => (hmore _ hm).2.1 rfl
  cases h with
  | turnedAway ha hn hh =>
    exact .turnedAway (fun hm => ha (hasked.mp hm)) (fun k => (hann k).trans (hn k))
      (hhand.trans hh)
  | stopped ha hn hl' =>
    exact .stopped (hasked.mpr ha) (fun k => (hann k).trans (hn k)) (fun hb => hl' (hl hb))
  | announced ha hn hnotice hl' ht =>
    refine .announced (hasked.mpr ha) (fun k => (hann k).trans (hn k)) hnotice ?_ fun t' => ?_
    · obtain ⟨line, hline⟩ := hl'
      exact ⟨line, hline.trans (List.prefix_append es more).isInfix⟩
    · rw [List.mem_append, ht t', or_iff_left]
      exact fun hm => (hmore _ hm).2.2 t' rfl

namespace Course

theorem Waits.fate {job : Job} {n : Nat} {call : Call} {use : TimeUse} {a : Awaited}
    {es : List Occasion} (hw : Waits job n call a es) (hu : call.use? = some use) :
    Fate job n use es := by
  cases hw with
  | time hu' =>
    exact .stopped (by simp) (by simp [announcements, announcement?])
      (by simp [LineBack, List.infix_cons_iff])
  | line hu' hn =>
    exact .stopped (by simp) (by simp [announcements, announcement?])
      (by simp [LineBack, List.infix_cons_iff])
  | notice hu' hn =>
    have := Option.some.inj (hu.symm.trans hu')
    subst this
    refine .announced (by simp) ?_ hn ?_ ?_
    · intro k
      by_cases hk : k = use
      · simp [announcements, announcement?, List.filterMap_cons, hn, hk]
      · simp [announcements, announcement?, List.filterMap_cons, hn, hk, Ne.symm hk]
    · exact ⟨_, [.began n call, .askedTime n, .toldTime n _], [.handed n (.notify _)], rfl⟩
    · simp
  | refusal hu' =>
    have := Option.some.inj (hu.symm.trans hu')
    subst this
    exact .turnedAway (by simp) (by simp [announcements, announcement?])
      rfl
  | publication hd hp =>
    rw [use?_of_document? hd] at hu
    cases hu

theorem Ended.fate {job : Job} {n : Nat} {call : Call} {use : TimeUse} {es : List Occasion}
    (he : Ended job n call es) (hu : call.use? = some use) : Fate job n use es := by
  cases he with
  | returned hw =>
    refine (hw.fate hu).append (by simp [handover?]) ?_
    generalize htodo : call.countings = todo at hw
    cases hw with
    | line => cases (countings_of_use hu).symm.trans htodo
    | notice => exact fun _ => ⟨_, [_, _, _], [_], rfl⟩
    | refusal => simp [LineBack, List.infix_cons_iff]
    | publication => simp [LineBack, List.infix_cons_iff]
  | failed hw =>
    refine (hw.fate hu).append (by simp [handover?]) fun hl => ?_
    obtain ⟨line, hline⟩ := hl
    rcases List.infix_concat_iff.mp hline with hsuffix | hinfix
    · obtain ⟨before, hbefore⟩ := hsuffix
      have hlast := congrArg List.getLast? hbefore
      simp at hlast
    · exact ⟨line, hinfix⟩
  | refused h =>
    rw [h] at hu
    cases hu

/-- A call that is for neither a start nor a finish announces nothing. -/
theorem Waits.announcements_of_none {job : Job} {n : Nat} {call : Call} {a : Awaited}
    {es : List Occasion} (hw : Waits job n call a es) (hu : call.use? = none) (k : TimeUse) :
    announcements k es = [] := by
  cases hw with
  | publication hd hp => rfl
  | time hu' => cases hu.symm.trans hu'
  | line hu' hn => cases hu.symm.trans hu'
  | notice hu' hn => cases hu.symm.trans hu'
  | refusal hu' => cases hu.symm.trans hu'

theorem Story.announcements_of_none {job : Job} {n : Nat} {call : Call} {es : List Occasion}
    (h : Story job n call es) (hu : call.use? = none) (k : TimeUse) : announcements k es = [] := by
  rcases h with ⟨a, hw⟩ | he
  · exact hw.announcements_of_none hu k
  · cases he with
    | returned hw =>
      rw [announcements, List.filterMap_append, List.append_eq_nil_iff]
      exact ⟨hw.announcements_of_none hu k, rfl⟩
    | failed hw =>
      rw [announcements, List.filterMap_append, List.append_eq_nil_iff]
      exact ⟨hw.announcements_of_none hu k, rfl⟩
    | refused hu' => rfl

theorem Story.fate {job : Job} {n : Nat} {call : Call} {use : TimeUse} {es : List Occasion}
    (h : Story job n call es) (hu : call.use? = some use) : Fate job n use es := by
  rcases h with ⟨a, hw⟩ | he
  · exact hw.fate hu
  · exact he.fate hu

/-! ## Who comes first -/

theorem firstFor_append (use : TimeUse) (past es : List Occasion) :
    firstFor use (past ++ es) = (firstFor use past).or (firstFor use es) :=
  List.findSome?_append

/-- The first call for a start or a finish did begin, and it is for that. -/
theorem began_of_firstFor {use : TimeUse} {past : List Occasion} {n : Nat}
    (h : firstFor use past = some n) : ∃ call, .began n call ∈ past ∧ call.use? = some use := by
  obtain ⟨o, ho, hn⟩ := List.exists_of_findSome?_eq_some h
  cases o with
  | began k call =>
    simp only [beginning?, Option.ite_none_right_eq_some, Option.some.injEq] at hn
    obtain ⟨hu, rfl⟩ := hn
    exact ⟨call, ho, hu⟩
  | _ => simp [beginning?] at hn

/-- A latch has fallen as soon as a call for it has begun, and it is the first such call, and no
other, that asks for the time. -/
structure Firsts (c : Course) : Prop where
  latch : ∀ use, (c.session.latch use).fallen = (firstFor use c.past).isSome
  asked : ∀ n call use, .began n call ∈ c.past → call.use? = some use →
    (.askedTime n ∈ c.past ↔ firstFor use c.past = some n)

/-- What happens to a call that has begun before changes nothing about who comes first. -/
theorem Firsts.append {c d : Course} (h : Firsts c) {es : List Occasion}
    (hp : d.past = c.past ++ es)
    (hes : ∀ e ∈ es, (∀ n call, e ≠ .began n call) ∧ ∀ n, e ≠ .askedTime n)
    (hl : ∀ k, d.session.latch k = c.session.latch k) : Firsts d := by
  have hfirst : ∀ use, firstFor use d.past = firstFor use c.past := by
    intro use
    have hnone : firstFor use es = none := by
      refine List.findSome?_eq_none_iff.mpr fun e he => ?_
      cases e with
      | began n call => exact absurd rfl ((hes _ he).1 n call)
      | _ => rfl
    rw [hp, firstFor_append, hnone, Option.or_none]
  refine ⟨fun use => by rw [hl, hfirst]; exact h.latch use, ?_⟩
  intro n call use hb hu
  have hb' : .began n call ∈ c.past := by
    rw [hp] at hb
    exact (List.mem_append.mp hb).resolve_right fun hm => (hes _ hm).1 n call rfl
  have hasked : .askedTime n ∈ d.past ↔ .askedTime n ∈ c.past := by
    rw [hp, List.mem_append, or_iff_left]
    exact fun hm => (hes _ hm).2 n rfl
  rw [hasked, hfirst]
  exact h.asked n call use hb' hu

/-- A call that begins asks for the time if it finds its latch up, and the latch has fallen
then. -/
theorem Firsts.begin {job : Job} {c d : Course} (h : Firsts c) (hk : Kept job c) {call : Call}
    {e : Occasion} (hp : d.past = c.past ++ [.began c.begun call, e])
    (he : e.number = c.begun ∧ ∀ n other, e ≠ .began n other)
    (hl : ∀ use, (d.session.latch use).fallen =
      ((c.session.latch use).fallen || decide (call.use? = some use)))
    (hasked : ∀ use, call.use? = some use →
      (e = .askedTime c.begun ↔ (c.session.latch use).fallen = false)) : Firsts d := by
  have hfirst : ∀ use, firstFor use d.past =
      (firstFor use c.past).or (if call.use? = some use then some c.begun else none) := by
    intro use
    have hnone : beginning? use e = none := by
      cases e with
      | began n other => exact absurd rfl (he.2 n other)
      | _ => rfl
    have hnew : firstFor use [.began c.begun call, e] =
        if call.use? = some use then some c.begun else none := by
      by_cases hu : call.use? = some use
      · simp [firstFor, beginning?, hu]
      · have hbegan : beginning? use (.began c.begun call) = none := by simp [beginning?, hu]
        simp [firstFor, hbegan, hnone, hu]
    rw [hp, firstFor_append, hnew]
  have hlt : ∀ use n, firstFor use c.past = some n → n ≠ c.begun := by
    intro use n hn
    obtain ⟨other, hother, -⟩ := began_of_firstFor hn
    exact Nat.ne_of_lt (hk.past_lt _ hother)
  refine ⟨fun use => ?_, ?_⟩
  · rw [hl, hfirst, h.latch]
    by_cases hu : call.use? = some use <;> simp [hu]
  · intro n other use hb hu
    rw [hfirst]
    rw [hp, List.mem_append] at hb ⊢
    rcases hb with hold | hnew
    · have hne : n ≠ c.begun := Nat.ne_of_lt (hk.past_lt _ hold)
      have hnot : .askedTime n ∉ [.began c.begun call, e] := by
        intro hm
        simp only [List.mem_cons, reduceCtorEq, List.not_mem_nil, or_false, false_or] at hm
        exact hne ((congrArg Occasion.number hm).trans he.1)
      rw [or_iff_left hnot, h.asked n other use hold hu]
      cases hf : firstFor use c.past with
      | some k => simp
      | none =>
        by_cases hu' : call.use? = some use <;> simp [hu', hne.symm]
    · simp only [List.mem_cons, Occasion.began.injEq, List.not_mem_nil, or_false] at hnew
      obtain ⟨rfl, rfl⟩ := hnew.resolve_right fun heq => he.2 _ _ heq.symm
      have hnot : .askedTime c.begun ∉ c.past := fun hm => Nat.lt_irrefl _ (hk.past_lt _ hm)
      rw [or_iff_right hnot]
      simp only [List.mem_cons, reduceCtorEq, List.not_mem_nil, or_false, false_or]
      rw [eq_comm, hasked use hu, h.latch, if_pos hu]
      cases hf : firstFor use c.past with
      | some k => simp [hlt use k hf]
      | none => simp

theorem Step.firsts {job : Job} {setup : Trace.Setup} {c d : Course} (hs : Step job setup c d)
    (hk : Kept job c) (h : Firsts c) : Firsts d := by
  cases hs with
  | refused hu hb =>
    refine h.begin hk rfl (by simp [Occasion.number]) (fun k => ?_) (by simp [hu])
    cases k <;> simp [latch, hu]
  | @asked call use hu hup =>
    refine h.begin hk rfl (by simp [Occasion.number]) (fun k => ?_) (by simp [hu, hup])
    rw [latch_letFall]
    by_cases hku : k = use
    · simp [hku, hu]
    · simp [hku, hu, Ne.symm hku]
  | @ignored call use hu hfallen =>
    refine h.begin hk rfl (by simp [Occasion.number]) (fun k => ?_) (by simp [hu, hfallen])
    by_cases hku : k = use
    · simp [hku, hfallen]
    · simp [hu, Ne.symm hku]
  | published hd hp =>
    have hu := use?_of_document? hd
    refine h.begin hk rfl (by simp [Occasion.number]) (fun k => ?_) (by simp [hu])
    cases k <;> simp [latch, hu]
  | told | announced | returned | failed => exact h.append rfl (by simp) (by simp)

theorem Reached.firsts {job : Job} {ok : Trace.Setup → Prop} {c : Course} (h : Reached job ok c) :
    Firsts c := by
  induction h with
  | fresh => exact ⟨fun use => by cases use <;> rfl, by simp⟩
  | step hc _ hs ih => exact hs.firsts hc.kept ih

/-! ## The law -/

/-- Only the first call for a start or a finish can announce it. -/
theorem Reached.firstFor_of_announcement {job : Job} {ok : Trace.Setup → Prop} {c : Course}
    (h : Reached job ok c) {use : TimeUse} {o : Occasion} (ho : o ∈ c.past)
    (ha : (announcement? use o).isSome = true) : firstFor use c.past = some o.number := by
  obtain ⟨notice, hnotice⟩ := Option.isSome_iff_exists.mp ha
  obtain ⟨call, hb, hstory⟩ := h.kept.story_of_lt (h.kept.past_lt o ho)
  have hmem : notice ∈ announcements use (story o.number c.past) :=
    List.mem_filterMap.mpr ⟨o, mem_story.mpr ⟨ho, rfl⟩, hnotice⟩
  cases hu : call.use? with
  | none =>
    rw [hstory.announcements_of_none hu] at hmem
    cases hmem
  | some k =>
    cases hstory.fate hu with
    | turnedAway _ hn _ =>
      rw [hn] at hmem
      cases hmem
    | stopped _ hn _ =>
      rw [hn] at hmem
      cases hmem
    | announced hasked hn _ _ _ =>
      have hk : use = k := by
        by_contra hne
        rw [hn, if_neg hne] at hmem
        cases hmem
      exact (h.firsts.asked _ call use hb (hk ▸ hu)).mp (mem_story.mp hasked).1

theorem Reached.announcements_of_none {job : Job} {ok : Trace.Setup → Prop} {c : Course}
    (h : Reached job ok c) {use : TimeUse} (hf : firstFor use c.past = none) :
    announcements use c.past = [] := by
  refine List.filterMap_eq_nil_iff.mpr fun o ho => ?_
  by_contra hne
  have hsome := h.firstFor_of_announcement ho (Option.isSome_iff_ne_none.mpr hne)
  rw [hf] at hsome
  cases hsome

theorem Reached.announcements_of_some {job : Job} {ok : Trace.Setup → Prop} {c : Course}
    (h : Reached job ok c) {use : TimeUse} {n : Nat} (hf : firstFor use c.past = some n) :
    announcements use c.past = announcements use (story n c.past) := by
  unfold announcements story
  rw [List.filterMap_filter]
  refine List.filterMap_congr fun o ho => ?_
  by_cases hn : o.number = n
  · simp [hn]
  · have hnone : announcement? use o = none := by
      by_contra hne
      have hsome := h.firstFor_of_announcement ho (Option.isSome_iff_ne_none.mpr hne)
      exact hn (Option.some.inj (hsome.symm.trans hf))
    simp [hn, hnone]

/-- What becomes of the first call for a start or a finish. -/
theorem Reached.fate_of_first {job : Job} {ok : Trace.Setup → Prop} {c : Course}
    (h : Reached job ok c) {use : TimeUse} {n : Nat} (hf : firstFor use c.past = some n) :
    .askedTime n ∈ c.past ∧ Fate job n use (story n c.past) := by
  obtain ⟨call, hb, hu⟩ := began_of_firstFor hf
  exact ⟨(h.firsts.asked n call use hb hu).mpr hf, (h.kept.story_of_began hb).fate hu⟩

/-- In every course the first call for a start, and likewise for a finish, asks for the time. It is
announced at most once: when that call has been told the time and the logger has come back to it,
with just that time, and otherwise never. All other calls for it neither ask for the time nor notify
the client; each says one thing, that it is ignored. -/
theorem a_job_starts_once_and_finishes_once (job : Job) (turns : List Turn) (use : TimeUse) :
    let past := (after job turns).past
    (announcements use past).length ≤ 1 ∧
      (∀ n, firstFor use past = some n → .askedTime n ∈ past) ∧
      (∀ n t, firstFor use past = some n → .toldTime n t ∈ past → LineBack n (story n past) →
        ∃ notice, announcements use past = [notice] ∧ announced? notice = some (use, t)) ∧
      ((∀ n t, firstFor use past = some n → .toldTime n t ∈ past → ¬ LineBack n (story n past)) →
        announcements use past = []) ∧
      ∀ n call, .began n call ∈ past → call.use? = some use → firstFor use past ≠ some n →
        .askedTime n ∉ past ∧ handovers (story n past) = [.log .log (refusal job use)] := by
  intro past
  have h : Reached job (fun _ => True) (after job turns) := reached_after job fun _ _ => trivial
  refine ⟨?_, fun n hf => (h.fate_of_first hf).1, ?_, ?_, ?_⟩
  · cases hf : firstFor use past with
    | none => simp [past, h.announcements_of_none hf]
    | some n =>
      rw [h.announcements_of_some hf]
      cases (h.fate_of_first hf).2 with
      | turnedAway _ hn _ => simp [hn]
      | stopped _ hn _ => simp [hn]
      | announced _ hn _ _ _ => simp [hn]
  · intro n t hf ht hl
    obtain ⟨hasked, hfate⟩ := h.fate_of_first hf
    rw [h.announcements_of_some hf]
    cases hfate with
    | turnedAway ha _ _ => exact absurd (mem_story.mpr ⟨hasked, rfl⟩) ha
    | stopped _ _ hl' => exact absurd hl hl'
    -- only one time was told, so it is the one that the notification carries
    | announced _ hn hnotice _ htimes =>
      have htime := (htimes t).mp (mem_story.mpr ⟨ht, rfl⟩)
      exact ⟨_, by simp [hn], htime ▸ hnotice⟩
  · intro hnot
    cases hf : firstFor use past with
    | none => exact h.announcements_of_none hf
    | some n =>
      rw [h.announcements_of_some hf]
      cases (h.fate_of_first hf).2 with
      | turnedAway _ hn _ => exact hn use
      | stopped _ hn _ => exact hn use
      | announced _ _ _ hl htimes =>
        have ht := (mem_story.mp ((htimes _).mpr rfl)).1
        exact absurd hl (hnot n _ hf ht)
  · intro n call hb hu hne
    have hnot : .askedTime n ∉ past := fun hm => hne ((h.firsts.asked n call use hb hu).mp hm)
    refine ⟨hnot, ?_⟩
    cases (h.kept.story_of_began hb).fate hu with
    | turnedAway _ _ hh => exact hh
    | stopped ha _ _ => exact absurd (mem_story.mp ha).1 hnot
    | announced ha _ _ _ _ => exact absurd (mem_story.mp ha).1 hnot

/-- A start within a start, and the end of the compiler's output within a finish. -/
theorem a_start_within_a_start_is_ignored :
    let job : Job := { target := ⟨"file:///t"⟩, name := "t", task := { id := "1" } }
    let past := fun outer inner : Call =>
      (after job [⟨{}, .call outer⟩, ⟨{}, .call inner⟩, ⟨{}, .back⟩, ⟨{}, .time 7⟩, ⟨{}, .back⟩]).past
    let isIgnored := fun (use : TimeUse) (past : List Occasion) (line : String) =>
      .askedTime 0 ∈ past ∧
        (∃ notice, announcements use past = [notice] ∧ announced? notice = some (use, 7)) ∧
        .askedTime 1 ∉ past ∧ handovers (story 1 past) = [.log .log line]
    isIgnored .start (past .start .start) "[task] 1 start ignored: already started" ∧
      isIgnored .finish (past .finish .summary) "[task] 1 finish ignored: already finished" := by
  intro job past isIgnored
  constructor
  · obtain ⟨-, hasked, hfirst, -, hothers⟩ := a_job_starts_once_and_finishes_once job _ .start
    have hline : LineBack 0 (story 0 (past .start .start)) :=
      ⟨startLine job, [.began 0 .start, .askedTime 0, .toldTime 0 7],
        [.handed 0 (.notify (.taskStart (startNotice job 7)))], by decide +kernel⟩
    exact ⟨hasked 0 (by decide +kernel), hfirst 0 7 (by decide +kernel) (by decide +kernel) hline,
      hothers 1 .start (by decide +kernel) rfl (by decide +kernel)⟩
  · obtain ⟨-, hasked, hfirst, -, hothers⟩ := a_job_starts_once_and_finishes_once job _ .finish
    have hline : LineBack 0 (story 0 (past .finish .summary)) :=
      ⟨finishLine job {}, [.began 0 .finish, .askedTime 0, .toldTime 0 7],
        [.handed 0 (.notify (.taskFinish (finishNotice job {} 7)))], by decide +kernel⟩
    exact ⟨hasked 0 (by decide +kernel), hfirst 0 7 (by decide +kernel) (by decide +kernel) hline,
      hothers 1 .summary (by decide +kernel) rfl (by decide +kernel)⟩

end Course

end BuildFeed.Session
