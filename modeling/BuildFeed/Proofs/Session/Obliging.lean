-- Clients that raise no error at a publication. A call that publishes waits for nobody but the client,
-- so where the client always comes back such a call can fail only when it begins, and then only for
-- its path.
import BuildFeed.Proofs.Session.Files

namespace BuildFeed.Session

/-- Whether the client is waited for, with a publication in its hands. -/
def Awaited.isPublication : Awaited → Bool
  | .back (.notify (.publish _)) _ => true
  | _ => false

/-- Whether a move raises an error. -/
def Move.isRaise : Move → Bool
  | .raise _ => true
  | _ => false

namespace Course

variable {job : Job} {setup : Trace.Setup} {c d : Course} {n : Nat} {call : Call} {e : Fault}

/-! ## Clients that always come back -/

/-- The innermost open call waits for the client to come back from a publication. -/
def AwaitsClient (c : Course) : Prop := ∃ o ∈ c.openCalls.head?, o.awaited.isPublication = true

instance (c : Course) : Decidable c.AwaitsClient :=
  inferInstanceAs (Decidable (∃ o ∈ c.openCalls.head?, _))

/-- Nowhere on the way does the client raise an error at what it is given to publish. -/
def ClientObliges (job : Job) (turns : List Turn) : Prop :=
  ∀ early t, early ++ [t] <+: turns → t.move.isRaise = true → ¬ (after job early).AwaitsClient

/-- Whether the client obliges can be seen turn by turn. -/
theorem clientObliges_iff {turns : List Turn} :
    ClientObliges job turns ↔
      ∀ k, (hk : k < turns.length) → turns[k].move.isRaise = true →
        ¬ (after job (turns.take k)).AwaitsClient := by
  constructor
  · intro h k hk
    apply h
    rw [List.take_append_getElem hk]
    exact List.take_prefix (k + 1) turns
  · rintro h early t ⟨late, rfl⟩
    simpa using h early.length (by simp)

instance (turns : List Turn) : Decidable (ClientObliges job turns) :=
  decidable_of_iff _ clientObliges_iff.symm

theorem ClientObliges.of_append {early late : List Turn} (h : ClientObliges job (early ++ late)) :
    ClientObliges job early :=
  fun turns t hp => h turns t (hp.trans (List.prefix_append early late))

theorem clientObliges_append_singleton {turns : List Turn} {t : Turn} :
    ClientObliges job (turns ++ [t]) ↔
      ClientObliges job turns ∧ (t.move.isRaise = true → ¬ (after job turns).AwaitsClient) := by
  constructor
  · intro h
    exact ⟨h.of_append, h turns t (List.prefix_refl _)⟩
  · rintro ⟨hturns, hlast⟩ early t' hp
    rcases List.prefix_concat_iff.mp hp with heq | hp
    · obtain ⟨rfl, hsame⟩ := List.append_inj' heq rfl
      rwa [(List.cons.inj hsame).1]
    · exact hturns early t' hp

/-- The courses that come about where trace lines can be written and the client always comes back from
a publication. -/
inductive Obliged (job : Job) : Course → Prop
  | fresh : Obliged job {}
  | step {c d : Course} {setup : Trace.Setup} (h : Obliged job c) (ht : setup.Timely)
      (hs : Step job setup c d) (hc : c.AwaitsClient → ∀ n e, d.past ≠ c.past ++ [.failed n e]) :
      Obliged job d

theorem Obliged.reached (h : Obliged job c) : Reached job Trace.Setup.Timely c := by
  induction h with
  | fresh => exact .fresh
  | step _ ht hs _ ih => exact .step ih ht hs

theorem Obliged.move (h : Obliged job c) (ht : setup.Timely) {m : Move}
    (hm : m.isRaise = true → ¬ c.AwaitsClient) : Obliged job (c.move job setup m) := by
  rcases h.reached.kept.move setup m with hsame | hs
  · rwa [hsame]
  · refine .step h ht hs fun hawaits n e hp => ?_
    rcases past_move job setup c m with hsame | ⟨o, es, hpast, hopens, -⟩
    · rw [hsame] at hp
      simp at hp
    · have hfirst : o :: es = [.failed n e] := List.append_cancel_left (hpast.symm.trans hp)
      obtain ⟨rfl, -⟩ := List.cons.inj hfirst
      cases hopens
      exact hm rfl hawaits

theorem obliged_after {turns : List Turn} (ht : ∀ t ∈ turns, t.setup.Timely)
    (hc : ClientObliges job turns) : Obliged job (after job turns) := by
  induction turns using List.reverseRecOn with
  | nil => exact .fresh
  | append_singleton turns t ih =>
    rw [after_append_singleton]
    obtain ⟨hturns, hlast⟩ := clientObliges_append_singleton.mp hc
    have hobliged := ih (fun t' ht' => ht t' (List.mem_append_left _ ht')) hturns
    exact hobliged.move (ht t (List.mem_append_right _ List.mem_cons_self)) hlast

/-! ## What can become of a call that publishes -/

/-- A call that is about a document and waits has published and waits for the client. -/
theorem Waits.awaited_of_publishing {a : Awaited} {es : List Occasion} (hw : Waits job n call a es)
    (hu : call.use? = none) :
    ∃ p, call.document? job = some (.ok p.document) ∧
      a = .back (.notify (.publish p)) call.countings := by
  cases hw with
  | publication hd hp => exact ⟨_, hp ▸ hd, rfl⟩
  | time hu' | line hu' hn | notice hu' hn | refusal hu' => cases hu.symm.trans hu'

/-- Where the innermost open call publishes, the client is waited for. -/
theorem Kept.awaitsClient (h : Kept job c) {o : OpenCall} {rest : List OpenCall}
    (ho : c.openCalls = o :: rest) (hu : o.call.use? = none) : c.AwaitsClient := by
  have hw := h.waits o (ho ▸ List.mem_cons_self)
  obtain ⟨p, -, ha⟩ := hw.awaited_of_publishing hu
  exact ⟨o, by rw [ho]; rfl, by rw [ha]; rfl⟩

/-- A call that publishes has failed, has returned, or waits for the client to come back. -/
theorem Kept.fate_of_publishing (h : Kept job c) (hb : .began n call ∈ c.past)
    (hu : call.use? = none) :
    (∃ e, .failed n e ∈ c.past) ∨
      (∃ doc, call.document? job = some (.ok doc)) ∧
        (.returned n ∈ c.past ∨ ∃ o ∈ c.openCalls, o.number = n ∧
          ∃ p, o.awaited = .back (.notify (.publish p)) call.countings) := by
  rcases h.open_or_ended hb with ⟨hopen, -⟩ | ⟨-, he⟩
  · obtain ⟨o, ho, rfl⟩ := List.mem_map.mp hopen
    have hw := h.waits o ho
    obtain rfl := (hw.began_iff call).mp (mem_story.mpr ⟨hb, rfl⟩)
    obtain ⟨p, hd, ha⟩ := hw.awaited_of_publishing hu
    exact .inr ⟨⟨_, hd⟩, .inr ⟨o, ho, rfl, p, ha⟩⟩
  · have hmem : ∀ o ∈ story n c.past, o ∈ c.past := fun o ho => (mem_story.mp ho).1
    generalize story n c.past = es at he hmem
    cases he with
    | returned hw =>
      obtain ⟨p, hd, -⟩ := hw.awaited_of_publishing hu
      exact .inr ⟨⟨_, hd⟩, .inl (hmem _ (by simp))⟩
    | failed hw => exact .inl ⟨_, hmem _ (List.mem_append_right _ List.mem_cons_self)⟩
    | refused hu' => exact .inl ⟨_, hmem _ (List.mem_cons_of_mem _ List.mem_cons_self)⟩

/-- Where the client always comes back, a call that publishes fails only if it has no document. -/
theorem Obliged.document?_of_failed (h : Obliged job c) (hb : .began n call ∈ c.past)
    (hu : call.use? = none) (hf : .failed n e ∈ c.past) :
    call.document? job = some (.error e) := by
  induction h with
  | fresh => cases hb
  | @step c d setup hc ht hs hg ih =>
    have hk := hc.reached.kept
    -- what is new has a number of its own, or is about the innermost open call
    have hold : ∀ {o}, o ∈ c.past → o.number ≠ c.begun := fun ho => Nat.ne_of_lt (hk.past_lt _ ho)
    cases hs with
    | refused hu' hbad =>
      simp only [List.mem_append, List.mem_cons, List.not_mem_nil, or_false, reduceCtorEq,
        false_or] at hb hf
      rcases hb with hb | hb
      · rcases hf with hf | hf
        · exact ih hb hf
        · cases hf
          exact absurd rfl (hold hb)
      · cases hb
        rcases hf with hf | hf
        · exact absurd rfl (hold hf)
        · cases hf
          exact (hbad ht).2
    | asked hu' _ | ignored hu' _ =>
      simp only [List.mem_append, List.mem_cons, List.not_mem_nil, or_false, reduceCtorEq] at hb hf
      rcases hb with hb | hb
      · exact ih hb hf
      · cases hb
        cases hu.symm.trans hu'
    | published hd hp =>
      simp only [List.mem_append, List.mem_cons, List.not_mem_nil, or_false, reduceCtorEq] at hb hf
      rcases hb with hb | hb
      · exact ih hb hf
      · cases hb
        exact absurd rfl (hold hf)
    | told ho | announced ho | returned ho => exact ih (by simpa using hb) (by simpa using hf)
    | @failed o rest e' ho =>
      simp only [List.mem_append, List.mem_cons, List.not_mem_nil, or_false, reduceCtorEq] at hb hf
      rcases hf with hf | hf
      · exact ih hb hf
      · cases hf
        have hw := hk.waits o (ho ▸ List.mem_cons_self)
        obtain rfl := (hw.began_iff call).mp (mem_story.mpr ⟨hb, rfl⟩)
        exact absurd rfl (hg (hk.awaitsClient ho hu) o.number e)

end Course

end BuildFeed.Session
