-- Workers that take turns. What is published of a document depends on the calls about that document
-- alone, in their own order, and the counts and the announcements do not depend on any order. So
-- however the calls of several workers fall between one another, it comes to the same.
import Mathlib.Data.List.Perm.Basic
import BuildFeed.Proofs.Session.Chains
import BuildFeed.Proofs.Session.InTurn

namespace BuildFeed.Session

/-! ## The order of documents -/

/-- All publications for a URI. -/
def publishedFor (u : String) (ps : List (Publish Diagnostic)) : List (Publish Diagnostic) :=
  ps.filter (fun p => p.document.uri = u)

theorem lastFor_publishedFor (u : String) (ps : List (Publish Diagnostic)) :
    lastFor u (publishedFor u ps) = lastFor u ps := by
  unfold lastFor publishedFor
  rw [List.filter_filter]
  simp only [Bool.and_self]

theorem publishedFor_append_singleton (u : String) (ps : List (Publish Diagnostic))
    (p : Publish Diagnostic) :
    publishedFor u (ps ++ [p]) =
      if p.document.uri = u then publishedFor u ps ++ [p] else publishedFor u ps := by
  unfold publishedFor
  rw [List.filter_append]
  by_cases h : p.document.uri = u <;> simp [h]

/-- A URI was published for just if it is that of a publication. -/
theorem mem_documents_iff (u : String) (ps : List (Publish Diagnostic)) :
    u ∈ (ps.map (·.document.uri)).eraseDups ↔ publishedFor u ps ≠ [] := by
  rw [List.mem_eraseDups, List.mem_map, publishedFor, ne_eq, List.filter_eq_nil_iff]
  simp

/-- Where the same was published for each URI, be it in another order, the documents are the same,
be they in another order. -/
theorem documents_perm {ps qs : List (Publish Diagnostic)}
    (h : ∀ u, publishedFor u ps = publishedFor u qs) :
    (ps.map (·.document.uri)).eraseDups.Perm (qs.map (·.document.uri)).eraseDups := by
  rw [List.perm_ext_iff_of_nodup (nodup_eraseDups _) (nodup_eraseDups _)]
  intro u
  rw [mem_documents_iff, mem_documents_iff, h u]

namespace Course

variable {job : Job} {c : Course}

/-! ## The calls of a course -/

/-- The calls that turns make, in the order in which they begin. -/
def made (turns : List Turn) : List Call := (turns.filterMap Turn.made?).map Prod.snd

/-- The calls that have begun, in the order in which they began. -/
def order (past : List Occasion) : List Call := (calls past).map Prod.snd

theorem order_append (past es : List Occasion) : order (past ++ es) = order past ++ order es := by
  rw [order, calls_append, List.map_append]
  rfl

theorem order_begin {n : Nat} {call : Call} {e : Occasion} (past : List Occasion)
    (he : ∀ k other, e ≠ .began k other) :
    order (past ++ [.began n call, e]) = order past ++ [call] := by
  rw [order_append, order, order, calls_begin he]
  rfl

theorem order_of_none {past es : List Occasion} (h : ∀ e ∈ es, ∀ n call, e ≠ .began n call) :
    order (past ++ es) = order past := by
  rw [order, calls_of_none h]
  rfl

theorem order_move_call (job : Job) (setup : Trace.Setup) (c : Course) (call : Call) :
    order (c.move job setup (.call call)).past = order c.past ++ [call] := by
  have hb := begin_begins job setup c.session call
  generalize hs : (c.session.begin job setup call).state = s at hb
  generalize hr : (c.session.begin job setup call).result = result at hb
  cases hb with
  | asks hu hup => rw [move_call_of_askTime hs hr, order_begin _ (by simp)]
  | ignored hu hfallen => rw [move_call_of_hand hs hr, order_begin _ (by simp)]
  | publishes hd => rw [move_call_of_hand hs hr, order_begin _ (by simp)]
  | fails hu hb => rw [move_call_of_error hs hr, order_begin _ (by simp)]

/-- The calls that begin are those that are made. -/
theorem order_after (job : Job) (turns : List Turn) :
    order (after job turns).past = made turns := by
  induction turns using List.reverseRecOn with
  | nil => rfl
  | append_singleton turns t ih =>
    have hreached : Reached job (fun _ => True) (after job turns) :=
      reached_after job fun t ht => trivial
    have hkept := hreached.kept
    rw [after_append_singleton, made, List.filterMap_append, List.map_append]
    obtain ⟨setup, m⟩ := t
    by_cases hm : ∃ call, m = .call call
    · obtain ⟨call, rfl⟩ := hm
      rw [order_move_call, ih]
      rfl
    · have hnot : ∀ call, m ≠ .call call := fun call h => hm ⟨call, h⟩
      have hnone : [Turn.mk setup m].filterMap Turn.made? = [] := by
        cases m with
        | call call => exact absurd rfl (hnot call)
        | _ => rfl
      rw [hnone, List.map_nil, List.append_nil]
      refine Eq.trans ?_ ih
      rcases hkept.move setup m with hsame | hs
      · rw [hsame]
      · obtain ⟨-, es, -, -, hcalls⟩ := hs.keeps hkept (begun_move hnot)
        rw [order, hcalls]
        rfl

/-! ## What is published of one document -/

/-- The calls about the document of a URI. -/
def callsFor (job : Job) (u : String) (cs : List Call) : List Call :=
  cs.filter (fun call => ownDocument? job call = some ⟨u⟩)

/-- The publications that calls about one document come to, each with what was said of it so far. -/
def series (job : Job) (u : String) (cs : List Call) : List (Publish Diagnostic) :=
  cs.foldl (fun ps call => ps ++ [publication job ⟨u⟩ (lastFor u ps ++ call.diagnostics)]) []

theorem series_append_singleton (job : Job) (u : String) (cs : List Call) (call : Call) :
    series job u (cs ++ [call]) =
      series job u cs ++
        [publication job ⟨u⟩ (lastFor u (series job u cs) ++ call.diagnostics)] := by
  simp [series]

/-- A call that is not about the document of a URI changes nothing of its series. -/
theorem callsFor_append_of_ne {u : String} {call : Call} (cs : List Call)
    (h : ownDocument? job call ≠ some ⟨u⟩) : callsFor job u (cs ++ [call]) = callsFor job u cs := by
  simp [callsFor, h]

theorem ownDocument?_of_ok {call : Call} {doc : Document}
    (hd : call.document? job = some (.ok doc)) :
    ownDocument? job call = some doc := by
  simp [ownDocument?, hd]

/-- What is published for a URI depends on the calls about its document alone. -/
theorem Reached.publishedFor_eq (h : Reached job Trace.Setup.Timely c) (u : String) :
    publishedFor u (publications c.past) = series job u (callsFor job u (order c.past)) := by
  induction h with
  | fresh => rfl
  | @step c d setup hc ht hs ih =>
    cases hs with
    | @refused call e board hu hb =>
      have hnone : ownDocument? job call ≠ some ⟨u⟩ := by simp [ownDocument?, (hb ht).2]
      rw [publications_of_none (by simp), order_begin _ (by simp),
        callsFor_append_of_ne _ hnone, ih]
    | @asked call use hu | @ignored call use hu =>
      have hnone : ownDocument? job call ≠ some ⟨u⟩ := by simp [ownDocument?_of_use hu]
      rw [publications_of_none (by simp), order_begin _ (by simp),
        callsFor_append_of_ne _ hnone, ih]
    | @published call doc p hd hp =>
      have hown := ownDocument?_of_ok hd
      rw [publications_append, order_begin _ (by simp)]
      show publishedFor u (publications c.past ++ [p]) = _
      rw [publishedFor_append_singleton, hp]
      by_cases hu : doc.uri = u
      · subst hu
        have hfor : callsFor job doc.uri (order c.past ++ [call]) =
            callsFor job doc.uri (order c.past) ++ [call] := by simp [callsFor, hown]
        rw [hfor, series_append_singleton, ← ih, lastFor_publishedFor, hc.board.1]
        exact if_pos rfl
      · have hnone : ownDocument? job call ≠ some ⟨u⟩ := by
          rw [hown]
          rintro ⟨⟩
          exact hu rfl
        rw [callsFor_append_of_ne _ hnone, ← ih]
        exact if_neg hu
    | told | returned | failed =>
      rw [publications_of_none (by simp), order_of_none (by simp), ih]
    | announced ho =>
      have hnone := hc.kept.publication?_of_line ho
      rw [publications_of_none (by simp [hnone]), order_of_none (by simp), ih]

/-! ## What is counted -/

/-- The number of the call with which the client was notified, if an occasion is that. -/
def notified? : Occasion → Option Nat
  | .handed n (.notify _) => some n
  | _ => none

/-- The course is over, and the client has never raised an error. -/
structure Accepted (c : Course) : Prop where
  closed : c.openCalls = []
  unraised : ∀ n ∈ c.past.filterMap notified?, hasFailed (story n c.past) = false

theorem hasPublished_iff {es : List Occasion} : hasPublished es = true ↔ publications es ≠ [] := by
  rw [hasPublished, List.any_eq_true, publications, ne_eq, List.filterMap_eq_nil_iff]
  simp [Option.isSome_iff_ne_none]

/-- A call publishes just if its path is good. -/
theorem Reached.hasPublished_eq (h : Reached job Trace.Setup.Timely c) {n : Nat} {call : Call}
    (hb : .began n call ∈ c.past) :
    hasPublished (story n c.past) = (ownDocument? job call).isSome := by
  have hone := h.eachOnce n call hb
  rw [Bool.eq_iff_iff, hasPublished_iff]
  cases hown : ownDocument? job call with
  | none =>
    rw [hown] at hone
    simpa using hone
  | some doc =>
    rw [hown] at hone
    simp only [Option.isSome_some, iff_true]
    intro hnil
    rw [hnil] at hone
    cases hone

/-- A call that has published has notified the client. -/
theorem notified_of_hasPublished {n : Nat} {past : List Occasion}
    (h : hasPublished (story n past) = true) : n ∈ past.filterMap notified? := by
  obtain ⟨o, ho, hsome⟩ := List.any_eq_true.mp h
  obtain ⟨hmem, hn⟩ := mem_story.mp ho
  refine List.mem_filterMap.mpr ⟨o, hmem, ?_⟩
  rcases o with _ | _ | _ | ⟨k, _ | notice⟩ | _ | _ | _
  case handed.notify => exact congrArg some hn
  all_goals cases hsome

/-- Where the client raises no error, the calls under a severity that have returned are those with a
good path. -/
theorem Accepted.returnedUnder_eq (h : Accepted c) (hc : Reached job Trace.Setup.Timely c)
    (s : Severity) :
    returnedUnder s c.past =
      (order c.past).countP fun call =>
        call.counted? = some s && (ownDocument? job call).isSome := by
  unfold returnedUnder numberOf order
  rw [List.countP_map]
  refine List.countP_congr fun k hk => ?_
  have hb := mem_calls.mp hk
  by_cases hcounted : k.2.counted? = some s
  · have hreturned := hc.kept.hasReturned_of_counts hb hcounted
    rw [h.closed] at hreturned
    simp only [Function.comp_apply, hcounted, hreturned, ← hc.hasPublished_eq hb]
    cases hpublished : hasPublished (story k.1 c.past) with
    | false => simp
    | true => simp [h.unraised k.1 (notified_of_hasPublished hpublished)]
  · simp [hcounted]

/-! ## Calls in turn -/

/-- A call that has failed is for neither a start nor a finish, and nothing has happened to it but that
it began and failed. -/
def FailedAtOnce (past : List Occasion) : Prop :=
  ∀ n e, .failed n e ∈ past → ∀ o ∈ past, o.number = n →
    (∃ call, call.use? = none ∧ o = .began n call) ∨ ∃ e', o = .failed n e'

/-- What a call that is made by itself goes through: it fails when it begins, or not at all. -/
theorem past_alone (job : Job) {f : Course} (x : Solo) (hf : f.openCalls = []) :
    ∃ es, (f.alone job x).past = f.past ++ es ∧ (∀ o ∈ es, o.number = f.begun) ∧
      (FailedAtOnce es ∨ ∀ n e, .failed n e ∉ es) := by
  have hb := begin_begins job x.setup f.session x.call
  generalize hs : (f.session.begin job x.setup x.call).state = s at hb
  generalize hr : (f.session.begin job x.setup x.call).result = result at hb
  cases hb with
  | asks hu hup =>
    rw [alone_of_askTime hf hu hs hr]
    exact ⟨_, rfl, by simp [Occasion.number], .inr (by simp)⟩
  | ignored hu hfallen =>
    rw [alone_of_hand hf hs (by rw [hr, countings_of_use hu])]
    exact ⟨_, rfl, by simp [Occasion.number], .inr (by simp)⟩
  | publishes hd =>
    rw [alone_of_hand hf hs hr]
    exact ⟨_, rfl, by simp [Occasion.number], .inr (by simp)⟩
  | fails hu hb =>
    rw [alone_of_error hf hs hr]
    exact ⟨_, rfl, by simp [Occasion.number], .inl (by simp [FailedAtOnce, Occasion.number, hu])⟩

/-- Where calls are made one after the other and nobody raises an error, a call fails at once or not at
all. -/
theorem failedAtOnce_inTurn (job : Job) (cs : List Solo) :
    FailedAtOnce (after job (inTurn cs)).past := by
  induction cs using List.reverseRecOn with
  | nil =>
    intro n e he
    cases he
  | append_singleton cs x ih =>
    have hreached : Reached job (fun _ => True) (after job (inTurn cs)) :=
      reached_after job fun _ _ => trivial
    have hold := hreached.kept.past_lt
    obtain ⟨es, hpast, hnumber, hes⟩ := past_alone job x (openCalls_inTurn job cs)
    rw [after_inTurn_append_singleton, hpast]
    -- What has happened to this call and what happened before have different numbers.
    intro n e he o ho hn
    rcases List.mem_append.mp he with he | he
    · rcases List.mem_append.mp ho with ho | ho
      · exact ih n e he o ho hn
      · exact absurd (hn.symm.trans (hnumber o ho)) (Nat.ne_of_lt (hold _ he))
    · rcases List.mem_append.mp ho with ho | ho
      · exact absurd (hn.trans (hnumber _ he)) (Nat.ne_of_lt (hold _ ho))
      · exact (hes.resolve_right fun hno => hno n e he) n e he o ho hn

/-- Where calls are made one after the other and nobody raises an error, the client accepts all that
it is given. -/
theorem accepted_inTurn (job : Job) (cs : List Solo) : Accepted (after job (inTurn cs)) where
  closed := openCalls_inTurn job cs
  unraised := by
    intro n hn
    obtain ⟨o, ho, hnotified⟩ := List.mem_filterMap.mp hn
    refine hasFailed_eq_false.mpr fun k e he => ?_
    obtain ⟨hmem, rfl⟩ := mem_story.mp he
    obtain ⟨h, rfl⟩ : ∃ h, o = .handed k h := by
      rcases o with _ | _ | _ | ⟨j, _ | notice⟩ | _ | _ | _ <;> cases hnotified
      exact ⟨_, rfl⟩
    rcases failedAtOnce_inTurn job cs k e hmem _ ho rfl with ⟨call, -, heq⟩ | ⟨e', heq⟩
    · cases heq
    · cases heq

/-- Nor is a start or a finish kept from going through. -/
theorem unhindered_inTurn (job : Job) (cs : List Solo) (use : TimeUse) :
    Unhindered use (after job (inTurn cs)).past := by
  intro k hk hu
  refine hasFailed_eq_false.mpr fun n e he => ?_
  obtain ⟨hmem, hn⟩ := mem_story.mp he
  rcases failedAtOnce_inTurn job cs n e hmem _ (mem_calls.mp hk) hn.symm with
    ⟨call, hnone, heq⟩ | ⟨e', heq⟩
  · cases heq
    rw [hnone] at hu
    cases hu
  · cases heq

/-! ## The law -/

theorem isSome_firstFor (use : TimeUse) (past : List Occasion) :
    (firstFor use past).isSome = (order past).any fun call => call.use? = some use := by
  rw [firstFor_eq, order, List.any_map]
  induction calls past with
  | nil => rfl
  | cons k rest ih =>
    by_cases hu : k.2.use? = some use
    · simp [hu]
    · simpa [hu] using ih

/-- Let the calls of two courses be the same but for their order, and let those about one document
stand in the same order in both. If the client raises no error in either, then each document gets
the same publications one after the other, and both sessions come to the same lists, counts and
documents. A start and a finish are announced equally often, at most once, unless the clock or the
logger has kept one from going through. -/
theorem workers_may_take_turns_in_any_order (job : Job) {turns turns' : List Turn}
    (ht : ∀ t ∈ turns, t.setup.Timely) (ht' : ∀ t ∈ turns', t.setup.Timely)
    (haccepted : Accepted (after job turns)) (haccepted' : Accepted (after job turns'))
    (hperm : (made turns).Perm (made turns'))
    (hown : ∀ u, callsFor job u (made turns) = callsFor job u (made turns')) :
    let c := after job turns
    let d := after job turns'
    (∀ u, c.session.answer job (.diagnostics u) = d.session.answer job (.diagnostics u)) ∧
      (∀ u, publishedFor u (publications c.past) = publishedFor u (publications d.past)) ∧
      c.session.answer job .tally = d.session.answer job .tally ∧
      (∃ us vs, c.session.answer job .documents = .documents us ∧
        d.session.answer job .documents = .documents vs ∧ us.Perm vs) ∧
      ∀ use, Unhindered use c.past → Unhindered use d.past →
        (announcements use c.past).length = (announcements use d.past).length ∧
          (announcements use c.past).length ≤ 1 := by
  intro c d
  have hc : Reached job Trace.Setup.Timely c := reached_after job ht
  have hd : Reached job Trace.Setup.Timely d := reached_after job ht'
  have horder : (order c.past).Perm (order d.past) := by
    rwa [order_after, order_after]
  have hpublished : ∀ u, publishedFor u (publications c.past) =
      publishedFor u (publications d.past) := by
    intro u
    rw [hc.publishedFor_eq, hd.publishedFor_eq, order_after, order_after, hown u]
  refine ⟨fun u => ?_, hpublished, ?_, ⟨_, _, rfl, rfl, ?_⟩, fun use huse huse' => ?_⟩
  · have hget : c.session.board.get u = d.session.board.get u := by
      rw [hc.board.1, hd.board.1, ← lastFor_publishedFor, hpublished u, lastFor_publishedFor]
    exact congrArg Answer.diagnostics hget
  · have htally : c.session.tally = d.session.tally := by
      refine Tally.ext_of fun s => ?_
      rw [hc.tally, hd.tally, haccepted.returnedUnder_eq hc, haccepted'.returnedUnder_eq hd]
      exact horder.countP_eq _
    exact congrArg Answer.tally htally
  · rw [hc.board.2, hd.board.2]
    exact documents_perm hpublished
  · have hfirst : (firstFor use c.past).isSome = (firstFor use d.past).isSome := by
      rw [isSome_firstFor, isSome_firstFor]
      exact horder.any_eq
    rw [hc.length_announcements haccepted.closed huse,
      hd.length_announcements haccepted'.closed huse', hfirst]
    refine ⟨rfl, ?_⟩
    split <;> decide

theorem two_workers_take_turns_on_two_files :
    let job : Job := { target := ⟨"file:///t"⟩, name := "t", task := { id := "1" } }
    let p (file : Option String) : Problem :=
      { severity := .warning, message := "unused", position := { file } }
    let turnsOf (calls : List Call) := inTurn (calls.map fun call => ⟨{}, call, 7⟩)
    let turns := turnsOf
      [.start, .problem .error (p (some "/a")), .ownProblem (p (some "/b")), .visit "////c",
        .visit "/a", .problem .info (p none), .visit "/b", .finish]
    let turns' := turnsOf
      [.ownProblem (p (some "/b")), .visit "/b", .finish, .problem .info (p none),
        .problem .error (p (some "/a")), .start, .visit "/a", .visit "////c"]
    let c := after job turns
    let d := after job turns'
    (made turns).Perm (made turns') ∧
      c.session.board.documents = ["file:///a", "file:///b", "file:///t"] ∧
      d.session.board.documents = ["file:///b", "file:///t", "file:///a"] ∧
      (∀ u, c.session.answer job (.diagnostics u) = d.session.answer job (.diagnostics u)) ∧
      (∀ u, publishedFor u (publications c.past) = publishedFor u (publications d.past)) ∧
      c.session.answer job .tally = d.session.answer job .tally ∧
      (∃ us vs, c.session.answer job .documents = .documents us ∧
        d.session.answer job .documents = .documents vs ∧ us.Perm vs) ∧
      ∀ use, (announcements use c.past).length = (announcements use d.past).length := by
  intro job p turnsOf turns turns' c d
  have ht : ∀ t ∈ turns, t.setup.Timely := by decide +kernel
  have ht' : ∀ t ∈ turns', t.setup.Timely := by decide +kernel
  have haccepted : Accepted c := accepted_inTurn job _
  have haccepted' : Accepted d := accepted_inTurn job _
  have hperm : (made turns).Perm (made turns') := by decide +kernel
  have hown : ∀ u, callsFor job u (made turns) = callsFor job u (made turns') := by
    intro u
    by_cases hu : u ∈ ["file:///a", "file:///b", "file:///t"]
    · revert u
      decide +kernel
    · have hnone : ∀ cs, (∀ call ∈ cs, ∀ doc ∈ ownDocument? job call,
          doc.uri ∈ ["file:///a", "file:///b", "file:///t"]) → callsFor job u cs = [] := by
        intro cs hcs
        refine List.filter_eq_nil_iff.mpr fun call hcall hdoc => hu ?_
        exact hcs call hcall ⟨u⟩ (of_decide_eq_true hdoc)
      rw [hnone (made turns) (by decide +kernel), hnone (made turns') (by decide +kernel)]
  obtain ⟨hlists, hpublished, htally, hdocs, hann⟩ :=
    workers_may_take_turns_in_any_order job ht ht' haccepted haccepted' hperm hown
  exact ⟨hperm, by decide +kernel, by decide +kernel, hlists, hpublished, htally, hdocs,
    fun use => (hann use (unhindered_inTurn job _ use) (unhindered_inTurn job _ use)).1⟩

end Course

end BuildFeed.Session
