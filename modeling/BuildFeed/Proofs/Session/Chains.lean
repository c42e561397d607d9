-- The lists that are published. A call with a good path publishes once, and says of its document
-- all that was said before and what it adds itself. So of each document every list begins with
-- those before it, and nothing that was said once is lost, moved or changed.
import BuildFeed.Proofs.Session.Origins
import BuildFeed.Proofs.Session.Published

namespace BuildFeed.Session

/-! ## Lists that only grow -/

/-- Publications, each of which says of its document all that was said of it before. -/
inductive Grows : List (Publish Diagnostic) → Prop
  | nil : Grows []
  | snoc {ps : List (Publish Diagnostic)} {p : Publish Diagnostic} (h : Grows ps)
      (hp : lastFor p.document.uri ps <+: p.diagnostics) : Grows (ps ++ [p])

theorem grows_append_singleton {ps : List (Publish Diagnostic)} {p : Publish Diagnostic} :
    Grows (ps ++ [p]) ↔ Grows ps ∧ lastFor p.document.uri ps <+: p.diagnostics := by
  constructor
  · intro h
    generalize hqs : ps ++ [p] = qs at h
    cases h with
    | nil => simp at hqs
    | snoc h hp =>
      obtain ⟨rfl, heq⟩ := List.append_inj' hqs rfl
      cases heq
      exact ⟨h, hp⟩
  · rintro ⟨h, hp⟩
    exact .snoc h hp

theorem Grows.prefix_lastFor {ps : List (Publish Diagnostic)} (h : Grows ps)
    {p : Publish Diagnostic} (hp : p ∈ ps) : p.diagnostics <+: lastFor p.document.uri ps := by
  induction h with
  | nil => cases hp
  | @snoc ps q _ hq ih =>
    rw [lastFor_append_singleton]
    rcases List.mem_append.mp hp with hp | hp
    · split
      · rename_i hsame
        rw [hsame] at hq
        exact (ih hp).trans hq
      · exact ih hp
    · obtain rfl := List.mem_singleton.mp hp
      simp

theorem Grows.pairwise {ps : List (Publish Diagnostic)} (h : Grows ps) :
    ps.Pairwise fun p q => p.document.uri = q.document.uri → p.diagnostics <+: q.diagnostics := by
  induction h with
  | nil => exact .nil
  | @snoc ps q h hq ih =>
    rw [List.pairwise_append]
    refine ⟨ih, List.pairwise_singleton .., fun p hp q' hq' hsame => ?_⟩
    rw [List.mem_singleton.mp hq'] at hsame ⊢
    rw [← hsame] at hq
    exact (h.prefix_lastFor hp).trans hq

namespace Course

variable {job : Job} {c : Course} {past es : List Occasion}

theorem Reached.grows (h : Reached job Trace.Setup.Timely c) : Grows (publications c.past) := by
  induction h with
  | fresh => exact .nil
  | step hc ht hs ih =>
    rcases hs.publishes_or_not hc.kept ht with ⟨hp, -⟩ | ⟨call, doc, -, -, hp⟩
    · rwa [hp]
    · rw [hp]
      refine .snoc ih ?_
      rw [← hc.board.1]
      exact List.prefix_append ..

/-! ## What each call publishes -/

/-- The document of a call whose path is good. -/
def ownDocument? (job : Job) (call : Call) : Option Document :=
  match call.document? job with
  | some (.ok doc) => some doc
  | _ => none

/-- Each call has published its own document, once, if it has one. -/
def EachOnce (job : Job) (past : List Occasion) : Prop :=
  ∀ n call, .began n call ∈ past →
    (publications (story n past)).map (·.document) = (ownDocument? job call).toList

theorem ownDocument?_of_use {call : Call} {use : TimeUse} (hu : call.use? = some use) :
    ownDocument? job call = none := by
  cases call <;> first | rfl | cases hu

/-- A new call has published at once what it will publish. -/
theorem EachOnce.begin (h : EachOnce job past) {n : Nat} {call : Call} {e : Occasion}
    (hpast : ∀ o ∈ past, o.number < n) (he : e.number = n ∧ ∀ k other, e ≠ .began k other)
    (hnew : (publications [.began n call, e]).map (·.document) =
      (ownDocument? job call).toList) :
    EachOnce job (past ++ [.began n call, e]) := by
  intro k other hb
  have hes : ∀ o ∈ [.began n call, e], o.number = n := by simpa [Occasion.number] using he.1
  rcases List.mem_append.mp hb with hold | hnow
  · have hlt : k < n := hpast _ hold
    rw [story_append_of_ne hes (Nat.ne_of_lt hlt)]
    exact h k other hold
  · simp only [List.mem_cons, Occasion.began.injEq, List.not_mem_nil, or_false] at hnow
    obtain ⟨rfl, rfl⟩ := hnow.resolve_right fun heq => he.2 _ _ heq.symm
    rw [story_append_of_eq hes, story_of_lt hpast]
    exact hnew

theorem EachOnce.append (h : EachOnce job past)
    (hes : ∀ e ∈ es, publication? e = none ∧ ∀ k other, e ≠ .began k other) :
    EachOnce job (past ++ es) := by
  intro n call hb
  have hold : .began n call ∈ past :=
    (List.mem_append.mp hb).resolve_right fun hm => (hes _ hm).2 n call rfl
  have hnone : ∀ e ∈ story n es, publication? e = none := fun e he => (hes e (mem_story.mp he).1).1
  rw [story, List.filter_append]
  exact (congrArg _ (publications_of_none hnone)).trans (h n call hold)

theorem Reached.eachOnce (h : Reached job Trace.Setup.Timely c) : EachOnce job c.past := by
  induction h with
  | fresh => simp [EachOnce]
  | @step c d setup hc ht hs ih =>
    have hlt := hc.kept.past_lt
    cases hs with
    | refused hu hb =>
      refine ih.begin hlt (by simp [Occasion.number]) ?_
      simp [publications, ownDocument?, (hb ht).2]
    | asked hu | ignored hu =>
      refine ih.begin hlt (by simp [Occasion.number]) ?_
      simp [publications, ownDocument?_of_use hu]
    | @published call doc p hd hp =>
      refine ih.begin hlt (by simp [Occasion.number]) ?_
      have hone :
          publications [.began c.begun call, .handed c.begun (.notify (.publish p))] = [p] := rfl
      rw [hone, ownDocument?, hd, hp]
      rfl
    | told | returned | failed => exact ih.append (by simp)
    | announced ho =>
      have hnone := hc.kept.publication?_of_line ho
      exact ih.append (by simp [hnone])

/-! ## The law -/

/-- In every course, each call publishes its document once if its path is good, and never
otherwise. What it publishes is all that was published of the document last, and then what the call
adds itself. So of each document a later list begins with every earlier one. -/
theorem each_call_publishes_once_and_lists_only_grow (job : Job) {turns : List Turn}
    (ht : ∀ t ∈ turns, t.setup.Timely) :
    let past := (after job turns).past
    (∀ n call, .began n call ∈ past →
        (publications (story n past)).map (·.document) = (ownDocument? job call).toList) ∧
      (∀ before n p later, past = before ++ .handed n (.notify (.publish p)) :: later →
        ∃ call doc, .began n call ∈ before ∧ call.document? job = some (.ok doc) ∧
          p = { document := doc
                target := job.target
                diagnostics := lastFor doc.uri (publications before) ++ call.diagnostics
                reset := true
                originId := job.originId }) ∧
      (publications past).Pairwise fun p q =>
        p.document.uri = q.document.uri → p.diagnostics <+: q.diagnostics := by
  intro past
  have h := reached_after job ht
  refine ⟨h.eachOnce, fun before n p later hp => ?_, h.grows.pairwise⟩
  obtain ⟨b, d, setup, es, more, hb, -, hs, rfl, hd⟩ := h.step_at hp
  rcases hs.notified hd with ⟨call, doc, rfl, hdoc, hpub⟩ | ⟨call, line, below, rfl, ho⟩
  · refine ⟨call, doc, by simp, hdoc, ?_⟩
    rw [publications_of_none (by simp), ← hb.board.1]
    exact Notice.publish.inj hpub
  · have hnone := hb.kept.publication?_of_line ho
    cases hnone

theorem a_list_grows_within_a_publication_of_it :
    let job : Job :=
      { target := ⟨"file:///t"⟩, name := "t", task := { id := "1" }, originId := some "" }
    let p : Problem :=
      { severity := .warning, message := "unused", position := { file := some "/a" } }
    let shown (t : Int) : Trace.Setup := { style := { timestamps := true }, clock := .ofInt t }
    let turns : List Turn :=
      [⟨shown 1, .call (.problem .error p)⟩, ⟨shown 2, .call (.ownProblem p)⟩,
        ⟨shown 3, .raise (.raised "closed")⟩, ⟨shown 4, .call (.visit "////a")⟩,
        ⟨shown 5, .call (.ownProblem { p with position := {} })⟩, ⟨shown 6, .back⟩,
        ⟨shown 7, .call (.visit "/a")⟩]
    let past := (after job turns).past
    (publications past).map (fun p => (p.document.uri, p.diagnostics.length)) =
        [("file:///a", 1), ("file:///a", 2), ("file:///t", 1), ("file:///a", 2)] ∧
      (∀ t ∈ turns, t.setup.Timely) ∧
      (∀ n call, .began n call ∈ past →
        (publications (story n past)).map (·.document) = (ownDocument? job call).toList) ∧
      (∀ before n p later, past = before ++ .handed n (.notify (.publish p)) :: later →
        ∃ call doc, .began n call ∈ before ∧ call.document? job = some (.ok doc) ∧
          p = { document := doc
                target := job.target
                diagnostics := lastFor doc.uri (publications before) ++ call.diagnostics
                reset := true
                originId := job.originId }) ∧
      (publications past).Pairwise fun p q =>
        p.document.uri = q.document.uri → p.diagnostics <+: q.diagnostics := by
  intro job p shown turns past
  have ht : ∀ t ∈ turns, t.setup.Timely := by decide +kernel
  exact ⟨by decide +kernel, ht, each_call_publishes_once_and_lists_only_grow job ht⟩

end Course

end BuildFeed.Session
