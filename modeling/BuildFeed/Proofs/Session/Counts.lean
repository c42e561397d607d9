-- The counts against the calls. A problem is on the board before it is published and counted after
-- that, so between the two stand the calls that still run and those that failed on the way. The
-- board holds just as many diagnostics as are counted and as there are such calls.
import BuildFeed.Proofs.Session.Published

namespace BuildFeed

/-! ## How much is on a board -/

theorem Entries.countP_flatMap_put {δ : Type} (p : δ → Bool) (key : String) (ds : List δ)
    (entries : List (String × List δ)) :
    ((put key ds entries).flatMap Prod.snd).countP p +
        ((entries.lookup key).getD []).countP p =
      (entries.flatMap Prod.snd).countP p + ds.countP p := by
  induction entries with
  | nil => simp [put]
  | cons e rest ih =>
    obtain ⟨k, current⟩ := e
    rw [lookup_cons]
    by_cases hk : key = k
    · simp [put, hk]
      omega
    · simp only [put, Ne.symm hk, hk, if_false, List.flatMap_cons, List.countP_append]
      omega

/-- All diagnostics on a board, over all documents. -/
def Board.all {δ : Type} (b : Board δ) : List δ := b.lists.flatMap Prod.snd

theorem Board.countP_all_grown {δ : Type} (p : δ → Bool) (b : Board δ) (uri : String)
    (more : List δ) : (b.grown uri more).all.countP p = b.all.countP p + more.countP p := by
  have hput := Entries.countP_flatMap_put p uri (b.get uri ++ more) b.lists
  unfold Board.all Board.grown Board.put
  simp only [Board.get, Board.get?, List.countP_append] at hput ⊢
  omega

/-- How many diagnostics there are on a board, over all documents. -/
def Board.total {δ : Type} (b : Board δ) : Nat := (b.lists.flatMap Prod.snd).length

theorem Board.total_grown {δ : Type} (b : Board δ) (uri : String) (more : List δ) :
    (b.grown uri more).total = b.total + more.length := by
  have hcount := Board.countP_all_grown (fun _ => true) b uri more
  rwa [List.countP_true] at hcount

/-- Two tallies are the same if each severity has the same count in both. -/
theorem Tally.ext_of {t u : Tally} (h : ∀ s, t.of s = u.of s) : t = u := by
  have he := h .error
  have hw := h .warning
  have hi := h .info
  cases t
  cases u
  simp_all [of]

namespace Session

/-! ## Counting calls -/

/-- The call that an occasion begins, with its number. -/
def call? : Occasion → Option (Nat × Call)
  | .began n call => some (n, call)
  | _ => none

/-- All calls that have begun, with their numbers, in the order in which they began. -/
def calls (past : List Occasion) : List (Nat × Call) := past.filterMap call?

/-- How many of the calls are of a kind and have been through things of a kind. -/
def numberOf (p : Call → List Occasion → Bool) (past : List Occasion) : Nat :=
  (calls past).countP (fun k => p k.2 (story k.1 past))

/-- Whether a call has returned, as its story tells. -/
def hasReturned (es : List Occasion) : Bool :=
  es.any fun
    | .returned _ => true
    | _ => false

/-- Whether a call has failed, as its story tells. -/
def hasFailed (es : List Occasion) : Bool :=
  es.any fun
    | .failed _ _ => true
    | _ => false

theorem hasFailed_eq_false {es : List Occasion} :
    hasFailed es = false ↔ ∀ n e, .failed n e ∉ es := by
  simp only [hasFailed, List.any_eq_false]
  constructor
  · exact fun h n e he => h _ he rfl
  · intro h o ho
    cases o with
    | failed n e => exact absurd ho (h n e)
    | _ => simp

/-- Whether a call has published, as its story tells. -/
def hasPublished (es : List Occasion) : Bool := es.any (fun o => (publication? o).isSome)

/-- How many calls that count under a severity have returned. -/
def returnedUnder (s : Severity) (past : List Occasion) : Nat :=
  numberOf (fun call es => call.counted? = some s && hasReturned es) past

theorem calls_append (past es : List Occasion) : calls (past ++ es) = calls past ++ calls es :=
  List.filterMap_append

theorem mem_calls {past : List Occasion} {n : Nat} {call : Call} :
    (n, call) ∈ calls past ↔ .began n call ∈ past := by
  simp only [calls, List.mem_filterMap]
  constructor
  · rintro ⟨o, ho, heq⟩
    cases o with
    | began k other => cases heq; exact ho
    | _ => cases heq
  · exact fun h => ⟨_, h, rfl⟩

theorem calls_of_none {past es : List Occasion} (h : ∀ e ∈ es, ∀ n call, e ≠ .began n call) :
    calls (past ++ es) = calls past := by
  have hnone : calls es = [] := by
    refine List.filterMap_eq_nil_iff.mpr fun e he => ?_
    cases e with
    | began n call => exact absurd rfl (h _ he n call)
    | _ => rfl
  rw [calls_append, hnone, List.append_nil]

theorem calls_begin {n : Nat} {call : Call} {e : Occasion} (he : ∀ k other, e ≠ .began k other) :
    calls [.began n call, e] = [(n, call)] := by
  have hlast : calls ([.began n call] ++ [e]) = calls [.began n call] :=
    calls_of_none (by simpa using he)
  exact hlast

/-- Where the members of a list are told apart by a key, a change of one member changes a count by
no more than that member. -/
theorem countP_of_key {α : Type} {L : List (Nat × α)} {n : Nat} {a : α} {p q : Nat × α → Bool}
    (hL : (L.map Prod.fst).Nodup) (ha : (n, a) ∈ L) (hpq : ∀ x ∈ L, x.1 ≠ n → p x = q x) :
    L.countP q + (if p (n, a) then 1 else 0) = L.countP p + (if q (n, a) then 1 else 0) := by
  induction L with
  | nil => cases ha
  | cons x rest ih =>
    rw [List.map_cons, List.nodup_cons] at hL
    rw [List.countP_cons, List.countP_cons]
    rcases List.mem_cons.mp ha with rfl | ha
    · have hrest : rest.countP p = rest.countP q := by
        refine List.countP_congr fun y hy => ?_
        have hne : y.1 ≠ n := fun heq => hL.1 (List.mem_map.mpr ⟨y, hy, heq⟩)
        rw [hpq y (List.mem_cons_of_mem _ hy) hne]
      omega
    · have hne : x.1 ≠ n := fun heq => hL.1 (List.mem_map.mpr ⟨(n, a), ha, heq.symm⟩)
      have hx := hpq x List.mem_cons_self hne
      have := ih hL.2 ha fun y hy => hpq y (List.mem_cons_of_mem _ hy)
      rw [hx]
      omega

/-- Where each member is counted in just one of the parts, or is not counted at all, the counts of
the parts add up. -/
theorem countP_of_parts {α : Type} {L : List α} {p q₁ q₂ q₃ q₄ : α → Bool}
    (h : ∀ x ∈ L, (if p x then 1 else 0) =
      (if q₁ x then 1 else 0) + (if q₂ x then 1 else 0) + (if q₃ x then 1 else 0) +
        if q₄ x then 1 else 0) :
    L.countP p = L.countP q₁ + L.countP q₂ + L.countP q₃ + L.countP q₄ := by
  induction L with
  | nil => rfl
  | cons x rest ih =>
    have hx := h x List.mem_cons_self
    have hrest := ih fun y hy => h y (List.mem_cons_of_mem _ hy)
    simp only [List.countP_cons]
    omega

/-- A new call is counted by what it has been through at once. -/
theorem numberOf_begin (p : Call → List Occasion → Bool) {past : List Occasion} {n : Nat}
    {call : Call} {e : Occasion} (hpast : ∀ o ∈ past, o.number < n)
    (he : e.number = n ∧ ∀ k other, e ≠ .began k other) :
    numberOf p (past ++ [.began n call, e]) =
      numberOf p past + if p call [.began n call, e] then 1 else 0 := by
  have hes : ∀ o ∈ [.began n call, e], o.number = n := by simpa [Occasion.number] using he.1
  have hold : (calls past).countP (fun k => p k.2 (story k.1 (past ++ [.began n call, e]))) =
      numberOf p past := by
    refine List.countP_congr fun k hk => ?_
    have hlt : k.1 < n := hpast _ (mem_calls.mp hk)
    rw [story_append_of_ne hes (Nat.ne_of_lt hlt)]
  rw [numberOf, calls_append, calls_begin he.2, List.countP_append, hold, List.countP_singleton,
    story_append_of_eq hes, story_of_lt hpast]
  rfl

/-- When more happens to a call, it is counted by what it has been through then, and all others as
before. -/
theorem numberOf_append (p : Call → List Occasion → Bool) {past es : List Occasion} {n : Nat}
    {call : Call} (hd : ((calls past).map Prod.fst).Nodup) (hb : .began n call ∈ past)
    (hes : ∀ e ∈ es, e.number = n ∧ ∀ k other, e ≠ .began k other) :
    numberOf p (past ++ es) + (if p call (story n past) then 1 else 0) =
      numberOf p past + if p call (story n past ++ es) then 1 else 0 := by
  have hnumber : ∀ e ∈ es, e.number = n := fun e he => (hes e he).1
  have hcount := countP_of_key (p := fun k => p k.2 (story k.1 past))
    (q := fun k => p k.2 (story k.1 (past ++ es))) hd (mem_calls.mpr hb) fun k hk hne => by
      rw [story_append_of_ne hnumber hne]
  rw [story_append_of_eq hnumber] at hcount
  rw [numberOf, calls_of_none fun e he => (hes e he).2]
  exact hcount

theorem numberOf_of_same (p : Call → List Occasion → Bool) {past es : List Occasion} {n : Nat}
    {call : Call} (hd : ((calls past).map Prod.fst).Nodup) (hb : .began n call ∈ past)
    (hes : ∀ e ∈ es, e.number = n ∧ ∀ k other, e ≠ .began k other)
    (hp : p call (story n past ++ es) = p call (story n past)) :
    numberOf p (past ++ es) = numberOf p past := by
  have := numberOf_append p hd hb hes
  rw [hp] at this
  omega

namespace Course

theorem Kept.began_of_open {job : Job} {c : Course} (h : Kept job c) {o : OpenCall}
    (ho : o ∈ c.openCalls) : .began o.number o.call ∈ c.past :=
  (mem_story.mp (((h.waits o ho).began_iff o.call).mpr rfl)).1

/-- No two calls have the same number. -/
theorem Step.calls_distinct {job : Job} {setup : Trace.Setup} {c d : Course}
    (hs : Step job setup c d) (hk : Kept job c) (h : ((calls c.past).map Prod.fst).Nodup) :
    ((calls d.past).map Prod.fst).Nodup := by
  have hnew : ∀ call e, (∀ k other, e ≠ .began k other) →
      ((calls (c.past ++ [.began c.begun call, e])).map Prod.fst).Nodup := by
    intro call e he
    rw [calls_append, calls_begin he, List.map_append, List.nodup_append]
    refine ⟨h, by simp, ?_⟩
    intro n hn k hk'
    obtain ⟨x, hx, rfl⟩ := List.mem_map.mp hn
    simp only [List.map_cons, List.map_nil, List.mem_singleton] at hk'
    have hlt : x.1 < c.begun := hk.past_lt _ (mem_calls.mp hx)
    omega
  cases hs with
  | refused | asked | ignored | published => exact hnew _ _ (by simp)
  | told | announced | returned | failed => rwa [calls_of_none (by simp)]

theorem Reached.calls_distinct {job : Job} {ok : Trace.Setup → Prop} {c : Course}
    (h : Reached job ok c) : ((calls c.past).map Prod.fst).Nodup := by
  induction h with
  | fresh => exact List.nodup_nil
  | step hc _ hs ih => exact hs.calls_distinct hc.kept ih

/-! ## What is counted -/

/-- A call that waits has neither returned nor failed. -/
theorem Waits.not_ended {job : Job} {n : Nat} {call : Call} {a : Awaited} {es : List Occasion}
    (hw : Waits job n call a es) : hasReturned es = false ∧ hasFailed es = false := by
  cases hw <;> exact ⟨rfl, rfl⟩

theorem tally_countedFor (call : Call) (s : Session) (severity : Severity) :
    (s.countedFor call).tally.of severity =
      s.tally.of severity + if call.counted? = some severity then 1 else 0 := by
  unfold countedFor
  cases call.counted? with
  | none => simp
  | some own => simp [Session.counted, Tally.of_count]

/-- What is counted under a severity are the calls that count under it and have returned. -/
theorem Reached.tally {job : Job} {ok : Trace.Setup → Prop} {c : Course} (h : Reached job ok c)
    (s : Severity) : c.session.tally.of s = returnedUnder s c.past := by
  induction h with
  | fresh => cases s <;> rfl
  | @step c d setup hc _ hs ih =>
    have hk := hc.kept
    have hd := hc.calls_distinct
    unfold returnedUnder at ih ⊢
    cases hs with
    | refused | asked | ignored | published =>
      rw [numberOf_begin _ hk.past_lt (by simp [Occasion.number])]
      simpa [hasReturned] using ih
    | told ho | announced ho | failed ho =>
      have hb := hk.began_of_open (ho ▸ List.mem_cons_self)
      rw [numberOf_of_same _ hd hb (by simp [Occasion.number]) (by simp [hasReturned])]
      simpa using ih
    -- the one step that counts, and the one that makes a story tell of a return
    | @returned n call handover rest ho =>
      have hw := hk.waits _ (ho ▸ List.mem_cons_self)
      have hb := hk.began_of_open (ho ▸ List.mem_cons_self)
      have hes : ∀ e ∈ [Occasion.cameBack n, .returned n],
          e.number = n ∧ ∀ k other, e ≠ .began k other := by simp [Occasion.number]
      have hcount := numberOf_append
        (fun call es => decide (call.counted? = some s) && hasReturned es) hd hb hes
      have hnow : hasReturned (story n c.past ++ [.cameBack n, .returned n]) = true := by
        simp [hasReturned]
      simp only at hw
      simp only [hw.not_ended.1, hnow, Bool.and_false, Bool.and_true, decide_eq_true_eq] at hcount
      rw [tally_countedFor, ih]
      simpa using hcount.symm

/-! ## What is on the board -/

/-- How many calls that count have published. -/
def publishedToCount (past : List Occasion) : Nat :=
  numberOf (fun call es => call.counted?.isSome && hasPublished es) past

theorem length_diagnostics (call : Call) :
    call.diagnostics.length = if call.counted?.isSome then 1 else 0 := by
  cases call <;> rfl

/-- On the board are the diagnostics of the calls that count and have published. -/
theorem Reached.total {job : Job} {c : Course} (h : Reached job Trace.Setup.Timely c) :
    c.session.board.total = publishedToCount c.past := by
  induction h with
  | fresh => rfl
  | @step c d setup hc ht hs ih =>
    have hk := hc.kept
    have hd := hc.calls_distinct
    unfold publishedToCount at ih ⊢
    cases hs with
    | refused hu hb =>
      rw [numberOf_begin _ hk.past_lt (by simp [Occasion.number])]
      simpa [hasPublished, (hb ht).1] using ih
    | asked | ignored =>
      rw [numberOf_begin _ hk.past_lt (by simp [Occasion.number])]
      simpa [hasPublished] using ih
    | published hd' hp =>
      rw [numberOf_begin _ hk.past_lt (by simp [Occasion.number]), Board.total_grown, ih,
        length_diagnostics]
      simp [hasPublished]
    | told ho | returned ho | failed ho =>
      have hb := hk.began_of_open (ho ▸ List.mem_cons_self)
      rw [numberOf_of_same _ hd hb (by simp [Occasion.number]) (by simp [hasPublished])]
      simpa using ih
    | announced ho =>
      have hnone := hk.publication?_of_line ho
      have hb := hk.began_of_open (ho ▸ List.mem_cons_self)
      rw [numberOf_of_same _ hd hb (by simp [Occasion.number]) (by simp [hasPublished, hnone])]
      exact ih

/-! ## The law -/

/-- How many calls that count have published and are still open or have failed. -/
def unsettled (c : Course) : Nat :=
  (calls c.past).countP fun k =>
    k.2.counted?.isSome && hasPublished (story k.1 c.past) &&
      (k.1 ∈ c.openCalls.map (·.number) || hasFailed (story k.1 c.past))

theorem use?_of_counted? {call : Call} {s : Severity} (hc : call.counted? = some s) :
    call.use? = none := by
  cases call <;> first | rfl | cases hc

/-- A call that counts can only return once it has published. -/
theorem Waits.published_of_counts {job : Job} {n : Nat} {call : Call} {h : Handover}
    {todo : List Act} {es : List Occasion} (hw : Waits job n call (.back h todo) es)
    {s : Severity} (hc : call.counted? = some s) : hasPublished es = true := by
  have hnone := use?_of_counted? hc
  cases hw with
  | publication hd hp => simp [hasPublished]
  | line hu hn => cases hnone.symm.trans hu
  | notice hu hn => cases hnone.symm.trans hu
  | refusal hu => cases hnone.symm.trans hu

/-- A call that counts has returned just if it has published and is neither open any more nor has
failed. -/
theorem Kept.hasReturned_of_counts {job : Job} {c : Course} (h : Kept job c) {n : Nat} {call : Call}
    {s : Severity} (hb : .began n call ∈ c.past) (hc : call.counted? = some s) :
    hasReturned (story n c.past) =
      (hasPublished (story n c.past) &&
        !(n ∈ c.openCalls.map (·.number) || hasFailed (story n c.past))) := by
  rcases h.open_or_ended hb with ⟨hopen, a, hw⟩ | ⟨hclosed, he⟩
  · rw [hw.not_ended.1, decide_eq_true hopen]
    simp
  · rw [decide_eq_false hclosed]
    generalize story n c.past = es at he
    cases he with
    | @returned h' es hw =>
      have hp := hw.published_of_counts hc
      have hf := hw.not_ended.2
      simp only [hasPublished, hasFailed, hasReturned] at hp hf ⊢
      simp [hp, hf]
    | failed hw =>
      have hr := hw.not_ended.1
      simp only [hasFailed, hasReturned] at hr ⊢
      simp [hr]
    | refused hu => simp [hasReturned, hasFailed]

/-- Of the calls that count and have published, all that are not settled have returned. -/
theorem Kept.publishedToCount_eq {job : Job} {c : Course} (h : Kept job c) :
    publishedToCount c.past =
      returnedUnder .error c.past + returnedUnder .warning c.past + returnedUnder .info c.past +
        unsettled c := by
  refine countP_of_parts fun k hk => ?_
  have hb := mem_calls.mp hk
  cases hc : k.2.counted? with
  | none => simp [hc]
  | some s =>
    simp only [hc, h.hasReturned_of_counts hb hc]
    generalize hasPublished (story k.1 c.past) = p
    generalize (decide (k.1 ∈ c.openCalls.map (·.number)) || hasFailed (story k.1 c.past)) = u
    cases p <;> cases u <;> cases s <;> rfl

/-- At every moment of every course, inside calls and outside them, the session answers for its
tally with how many of the calls that count under each severity have returned. What is on the board
besides is from the calls that have published and are still open or have failed. -/
theorem the_tally_counts_the_calls_that_returned (job : Job) {turns : List Turn}
    (ht : ∀ t ∈ turns, t.setup.Timely) :
    let c := after job turns
    c.session.answer job .tally =
        .tally
          { errors := returnedUnder .error c.past
            warnings := returnedUnder .warning c.past
            infos := returnedUnder .info c.past } ∧
      c.session.board.total =
        returnedUnder .error c.past + returnedUnder .warning c.past + returnedUnder .info c.past +
          unsettled c := by
  intro c
  have h := reached_after job ht
  refine ⟨?_, h.total.trans h.kept.publishedToCount_eq⟩
  rw [← h.tally .error, ← h.tally .warning, ← h.tally .info]
  rfl

theorem one_call_has_returned_one_has_failed_and_one_is_open :
    let job : Job := { target := ⟨"file:///t"⟩, name := "t", task := { id := "1" } }
    let p : Problem :=
      { severity := .warning, message := "unused", position := { file := some "/a" } }
    let shown (t : Int) : Trace.Setup := { style := { timestamps := true }, clock := .ofInt t }
    let turns : List Turn :=
      [⟨shown 1, .call (.problem .error p)⟩, ⟨shown 2, .call (.ownProblem p)⟩, ⟨shown 3, .back⟩,
        ⟨shown 4, .call (.problem .info p)⟩, ⟨shown 5, .raise (.raised "closed")⟩]
    let c := after job turns
    (∀ t ∈ turns, t.setup.Timely) ∧ unsettled c = 2 ∧
      c.session.answer job .tally =
        .tally
          { errors := returnedUnder .error c.past
            warnings := returnedUnder .warning c.past
            infos := returnedUnder .info c.past } ∧
      c.session.board.total =
        returnedUnder .error c.past + returnedUnder .warning c.past + returnedUnder .info c.past +
          unsettled c := by
  intro job p shown turns c
  have ht : ∀ t ∈ turns, t.setup.Timely := by
    show ∀ t ∈ turns, t.setup.style.timestamps = true →
      (Instant.ofClock? t.setup.clock).isSome = true
    decide +kernel
  exact ⟨ht, by decide +kernel, the_tally_counts_the_calls_that_returned job ht⟩

end Course

end Session

end BuildFeed
