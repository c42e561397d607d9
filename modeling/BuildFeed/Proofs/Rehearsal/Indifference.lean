-- What a rehearsal does not depend on. Trace lines come between its steps, but nobody on the stage
-- reads them; and whoever sends does not wait for what becomes of the send, so a refusal on the
-- spot and one that comes later are one and the same.
import BuildFeed.Proofs.Delivery.Twins
import BuildFeed.Proofs.Rehearsal.Carriage
import BuildFeed.Trace.Panel

namespace BuildFeed.Rehearsal

open Post (Twins TracedAlike)

variable {view : Event Diagnostic → Option (Event Diagnostic)} {cast cast' : Cast} {s t : Stage}

/-! ## Stages with twin posts -/

/-- Two casts for the same job that see the same clock, and whose trace lines are alike in view. -/
structure SameBut (view : Event Diagnostic → Option (Event Diagnostic)) (cast cast' : Cast) :
    Prop where
  job : cast.job = cast'.job
  logger : cast.logger = cast'.logger
  client : cast.client = cast'.client
  wall : cast.setup.clock = cast'.setup.clock
  traced : TracedAlike view cast.setup cast'.setup

theorem SameBut.begin (h : SameBut view cast cast') (session : Session) (call : Session.Call) :
    (session.begin cast.job cast.setup call).state =
        (session.begin cast'.job cast'.setup call).state ∧
      (session.begin cast.job cast.setup call).result =
        (session.begin cast'.job cast'.setup call).result := by
  rw [h.job]
  rcases h.traced with hsame | ⟨-, ht, ht'⟩
  · rw [hsame]
    exact ⟨rfl, rfl⟩
  · exact Session.begin_of_timely ht ht' ..

theorem SameBut.give (h : SameBut view cast cast') (hpost : Twins view s.post t.post)
    (handover : Session.Handover) :
    Twins view (give cast handover s).1.post (give cast' handover t).1.post ∧
      (Rehearsal.give cast handover s).2 = (Rehearsal.give cast' handover t).2 := by
  unfold Rehearsal.give
  rw [h.logger, h.client]
  cases handover with
  | log level message => exact ⟨hpost.log .., rfl⟩
  | notify n =>
    cases cast'.client with
    | recorder => exact ⟨hpost.mark _, rfl⟩
    | connection =>
      obtain ⟨hposts, hresult⟩ := hpost.notify h.traced n
      exact ⟨hposts, congrArg (Except.map fun _ => none) hresult⟩

/-- Such casts keep the posts of their stages twins, also while failed sends are dealt with. -/
theorem SameBut.tandem (h : SameBut view cast cast') :
    Tandem (fun _ => true) True (Twins view) cast cast' where
  job := h.job
  wall := h.wall
  state session call := (h.begin session call).1
  result session call := (h.begin session call).2
  trace := by
    intro session call p q hpost
    rw [h.job]
    rcases h.traced with hsame | ⟨hidden, -⟩
    · rw [hsame]
      exact hpost.markTraced _
    · exact hpost.markTraced_of_hidden hidden _ _
  sign e p q _ hpost := hpost.mark e
  give handover s t _ hpost := (h.give hpost handover).1
  answer := by
    intro handover s t
    have hgiven : (Rehearsal.give cast handover s).2 = (Rehearsal.give cast' handover s).2 :=
      (h.give (t := s) ⟨rfl, rfl, .refl _⟩ handover).2
    rw [hgiven, give_answer cast' handover s t]
  drain p q _ hpost := by
    rw [h.logger]
    exact hpost.drain _
  dispose p q hpost := ⟨hpost.events, hpost.waiting, hpost.connection.dispose⟩

/-! ## Plays -/

/-- Step for step the reports show the same, and the posts are twins again at the end. -/
theorem SameBut.play (h : SameBut view cast cast') (interruptions : List Interruption)
    (steps : List Step) (hst : Abreast (fun _ => true) (Twins view) s t) :
    (play cast interruptions steps s).1.map (Report.through view) =
        (play cast' interruptions steps t).1.map (Report.through view) ∧
      Twins view (play cast interruptions steps s).2.post
        (play cast' interruptions steps t).2.post := by
  induction steps generalizing s t with
  | nil => exact ⟨rfl, hst.post⟩
  | cons step rest ih =>
    have hfresh : Abreast (fun _ => true) (Twins view) s.fresh t.fresh :=
      ⟨hst.session, hst.clock, hst.seen, hst.post.fresh⟩
    have hall : Admitted (fun _ => true) True interruptions := fun i _ => ⟨rfl, fun _ => trivial⟩
    have hstep : step = .drain → True := fun _ => trivial
    have hdone := doStep_alike h.tandem (occur_alike h.tandem hall) hstep hfresh
    obtain ⟨hreports, hlast⟩ := ih hdone.stage
    unfold Rehearsal.play
    refine ⟨?_, hlast⟩
    rw [List.map_cons, List.map_cons, hreports]
    congr 1
    unfold Report.through report
    simp only [hdone.stage.post.events, hdone.result, hdone.stage.session]

/-- Whole rehearsals show the same, from the options to what happens at the end. -/
theorem rehearse_alike (options : Options) (client : Client) {setup setup' : Trace.Setup}
    (hwall : setup.clock = setup'.clock) (htraced : TracedAlike view setup setup')
    {connection connection' : Connection} (hconnection : connection.FailsLike connection')
    (interruptions : List Interruption) (steps : List Step) :
    (rehearse options setup client connection interruptions steps).map (through view) =
      (rehearse options setup' client connection' interruptions steps).map (through view) := by
  unfold rehearse opening
  cases options.settle with
  | error e => rfl
  | ok settings =>
    have hcasts : SameBut view
        { job := settings.job, setup, logger := settings.logger, client }
        { job := settings.job, setup := setup', logger := settings.logger, client } :=
      ⟨rfl, rfl, rfl, hwall, htraced⟩
    obtain ⟨hreports, hlast⟩ := hcasts.play interruptions steps
      (s := { post := { connection }, clock := settings.clock })
      (t := { post := { connection := connection' }, clock := settings.clock })
      ⟨rfl, rfl, fun _ _ => rfl, ⟨rfl, rfl, hconnection⟩⟩
    exact congrArg Except.ok (Prod.ext hreports (hlast.remaining settings.logger))

/-- Things done with new posts show the same. -/
theorem seen_alike {δ : Type} {view : Event δ → Option (Event δ)} {setup setup' : Trace.Setup}
    (htraced : TracedAlike view setup setup') (logger : Logger)
    {connection connection' : Connection}
    (hconnection : connection.FailsLike connection') (steps : List (Post.Step δ)) :
    Post.seen view setup logger connection steps =
      Post.seen view setup' logger connection' steps := by
  have hposts : Twins view { connection } { connection := connection' } := ⟨rfl, rfl, hconnection⟩
  obtain ⟨hdone, hlast⟩ := hposts.run htraced logger steps
  exact Prod.ext hdone (hlast.remaining logger)

/-! ## Trace lines -/

/-- Whatever is traced, in whatever style and wherever the lines go: as long as the lines can be
written, a rehearsal is the same but for them, with the same events, values, errors, counts and
documents. So is everything that is done with a post on its own. -/
theorem nothing_but_trace_lines_depends_on_tracing {setup setup' : Trace.Setup}
    (hwall : setup.clock = setup'.clock) (ht : setup.Timely) (ht' : setup'.Timely) :
    (∀ (options : Options) (client : Client) (connection : Connection)
        (interruptions : List Interruption) (steps : List Step),
      (rehearse options setup client connection interruptions steps).map
          (through Event.untraced?) =
        (rehearse options setup' client connection interruptions steps).map
          (through Event.untraced?)) ∧
    ∀ (δ : Type) (logger : Logger) (connection : Connection) (steps : List (Post.Step δ)),
      Post.seen Event.untraced? setup logger connection steps =
        Post.seen Event.untraced? setup' logger connection steps := by
  have htraced : ∀ δ : Type, TracedAlike (δ := δ) Event.untraced? setup setup' :=
    fun δ => .inr ⟨fun _ => rfl, ht, ht'⟩
  constructor
  · intro options client connection interruptions steps
    exact rehearse_alike options client hwall (htraced _) (.refl connection) interruptions steps
  · intro δ logger connection steps
    exact seen_alike (htraced δ) logger (.refl connection) steps

/-- A start within which a problem is published and the failed sends are dealt with: once with every
channel on, and once with none. -/
theorem a_start_is_the_same_with_every_channel_on :
    let options : Options :=
      { job := { target := ⟨"file:///t"⟩, name := "t", task := { id := "1" } }
        logger := some (.connection "[job]"), clock := some (.readings [5]) }
    let traced := Trace.Panel.opened 7 (some "*") (some .json) (some true) (some .custom)
    let silent := Trace.Panel.opened 7 none none none none
    let p : Problem :=
      { severity := .warning, message := "unused", position := { file := some "/a" } }
    let interruptions : List Interruption :=
      [{ moment := .now, nth := 1, steps := [.call (.ownProblem p), .drain] }]
    let steps : List Step := [.call .start, .call (.visit "////a")]
    let connection : Connection := .scripted [.thrown (.plain "full")]
    let played (setup : Trace.Setup) :=
      rehearse options setup .connection connection interruptions steps
    let finish : TaskFinish :=
      { task := { id := "1" }
        eventTime := 5
        status := .ok
        message := "Compiled t"
        report := { target := ⟨"file:///t"⟩, errors := 0, warnings := 0 } }
    let posted (setup : Trace.Setup) := Post.seen (δ := Diagnostic) Event.untraced? setup .recorder
      connection [.notify (.taskFinish finish), .drain]
    let lengths (setup : Trace.Setup) :=
      (played setup).map fun done => done.1.map fun r => r.events.length
    traced.clock = silent.clock ∧ traced.Timely ∧ silent.Timely ∧
      lengths traced = .ok [15, 0] ∧ lengths silent = .ok [10, 0] ∧
      (played traced).map (through Event.untraced?) =
        (played silent).map (through Event.untraced?) ∧
      posted traced = posted silent := by
  intro options traced silent p interruptions steps connection played finish posted lengths
  have hwall : traced.clock = silent.clock := rfl
  have ht : traced.Timely := by decide +kernel
  have ht' : silent.Timely := by decide +kernel
  obtain ⟨hrehearsed, hposted⟩ := nothing_but_trace_lines_depends_on_tracing hwall ht ht'
  exact ⟨hwall, ht, ht', by decide +kernel, by decide +kernel, hrehearsed .., hposted ..⟩

/-! ## Refusals -/

theorem failsLike_of_deferred {outcomes outcomes' : List Outcome}
    (h : List.Forall₂ Outcome.Deferred outcomes outcomes') :
    (Connection.scripted outcomes).FailsLike (.scripted outcomes') := by
  refine .scripted ?_
  induction h with
  | nil => rfl
  | cons hfirst _ ih =>
    rw [List.map_cons, List.map_cons, ih]
    cases hfirst <;> rfl

theorem through_all : through some = id := by
  funext done
  unfold through
  rw [through_some, List.map_id, List.filterMap_some]
  rfl

/-- A send that is refused on the spot and one that is turned down later for the same reason are the
same to everybody. Whichever refusals of a script come sooner or later, a rehearsal is the same
throughout, and so is everything that is done with a post on its own. -/
theorem a_refusal_may_come_sooner_or_later {outcomes outcomes' : List Outcome}
    (h : List.Forall₂ Outcome.Deferred outcomes outcomes') :
    (∀ (options : Options) (setup : Trace.Setup) (client : Client)
        (interruptions : List Interruption) (steps : List Step),
      rehearse options setup client (.scripted outcomes) interruptions steps =
        rehearse options setup client (.scripted outcomes') interruptions steps) ∧
    ∀ (δ : Type) (setup : Trace.Setup) (logger : Logger) (steps : List (Post.Step δ)),
      Post.seen some setup logger (.scripted outcomes) steps =
        Post.seen some setup logger (.scripted outcomes') steps := by
  have hfails := failsLike_of_deferred h
  constructor
  · intro options setup client interruptions steps
    have htraced : TracedAlike (δ := Diagnostic) some setup setup := .inl rfl
    have hsame := rehearse_alike options client rfl htraced hfails interruptions steps
    rwa [through_all, Except.map_id, id, id] at hsame
  · intro δ setup logger steps
    exact seen_alike (.inl rfl) logger hfails steps

theorem a_start_is_the_same_if_it_is_refused_later :
    let outcomes : List Outcome :=
      [.thrown (.plain "full"), .accepted, .rejected (.value (.number 7)),
        .thrown (.plain "closed")]
    let outcomes' : List Outcome :=
      [.rejected (.plain "full"), .accepted, .thrown (.value (.number 7)),
        .thrown (.plain "closed")]
    let options : Options :=
      { job := { target := ⟨"file:///t"⟩, name := "t", task := { id := "1" } }
        logger := some (.connection "[job]"), clock := some (.readings [5]) }
    let p : Problem :=
      { severity := .warning, message := "unused", position := { file := some "/a" } }
    let interruptions : List Interruption :=
      [{ moment := .now, nth := 1, steps := [.call (.ownProblem p), .drain] }]
    let steps : List Step := [.call .start, .call .start, .drain]
    let played (outcomes : List Outcome) :=
      rehearse options {} .connection (.scripted outcomes) interruptions steps
    let posted (outcomes : List Outcome) :=
      Post.seen (δ := Diagnostic) some {} (.connection "[job]")
        (.scripted outcomes) [.log .info "a", .log .warn "b", .log .error "c"]
    List.Forall₂ Outcome.Deferred outcomes outcomes' ∧
      (posted outcomes).2.length = 2 ∧
      (played outcomes).map (fun done => done.1.map fun r => r.events.length) = .ok [9, 1, 4] ∧
      played outcomes = played outcomes' ∧ posted outcomes = posted outcomes' := by
  intro outcomes outcomes' options p interruptions steps played posted
  have h : List.Forall₂ Outcome.Deferred outcomes outcomes' :=
    .cons (.later _) (.cons (.same _) (.cons (.sooner _) (.cons (.same _) .nil)))
  obtain ⟨hrehearsed, hposted⟩ := a_refusal_may_come_sooner_or_later h
  exact ⟨h, by decide +kernel, by decide +kernel, hrehearsed .., hposted ..⟩

end BuildFeed.Rehearsal
