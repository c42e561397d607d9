-- Calls that are refused. A problem or a visit has a document unless its path begins with four slashes.
-- Without a document the call ends at once and leaves no trace, and with one nothing can stop it but
-- a client that raises an error.
import BuildFeed.Rehearsal.Play
import BuildFeed.Proofs.Delivery.Sends
import BuildFeed.Proofs.Session.Obliging

namespace BuildFeed

namespace Session

variable {job : Job} {call : Call} {e : Fault}

/-! ## Calls without a document -/

/-- A call names a path that begins with four slashes. -/
def Call.NamesFourSlashes (call : Call) : Prop :=
  ∃ path, call.path? = some path ∧ "////".toList <+: path.toList

theorem exists_document? (job : Job) (hu : call.use? = none) :
    ∃ result, call.document? job = some result := by
  cases call with
  | start | finish | summary => cases hu
  | problem | ownProblem | visit => exact ⟨_, rfl⟩

theorem ofPosition_eq_error_iff {p : Position} {target : Target} :
    Document.ofPosition p target = .error e ↔
      e = .slashes ∧ ∃ path, p.file = some path ∧ "////".toList <+: path.toList := by
  unfold Document.ofPosition
  cases p.file with
  | none => simp
  | some path => simp [Document.ofPath_eq_error_iff]

/-- A problem or a visit has no document just if its path begins with four slashes. -/
theorem document?_eq_error_iff (hu : call.use? = none) :
    call.document? job = some (.error e) ↔ e = .slashes ∧ call.NamesFourSlashes := by
  unfold Call.NamesFourSlashes
  cases call with
  | start | finish | summary => cases hu
  | problem counted p => exact Option.some_inj.trans ofPosition_eq_error_iff
  | ownProblem p => exact Option.some_inj.trans ofPosition_eq_error_iff
  | visit path =>
    apply Option.some_inj.trans
    simp [Document.ofPath_eq_error_iff, Call.path?]

/-- Without a document a call ends before it has done anything. -/
theorem begin_of_no_document (hd : call.document? job = some (.error e)) (setup : Trace.Setup)
    (s : Session) : s.begin job setup call = { state := s, result := .error e } := by
  cases call with
  | start | finish | summary => cases hd
  | problem counted p =>
    have hdoc : Document.ofPosition p.position job.target = .error e := Option.some.inj hd
    simp only [begin, takeProblem, hdoc]
  | ownProblem p =>
    have hdoc : Document.ofPosition p.position job.target = .error e := Option.some.inj hd
    simp only [begin, takeProblem, hdoc]
  | visit path =>
    have hdoc : Document.ofPath path = .error e := Option.some.inj hd
    simp only [begin, takeVisit, hdoc]

/-- With a document a call has something to publish, as long as its trace lines can be written. -/
theorem begin_of_document {setup : Trace.Setup} {doc : Document} (ht : setup.Timely)
    (hd : call.document? job = some (.ok doc)) (s : Session) :
    ∃ p, (s.begin job setup call).result =
      .ok (.acts (.hand (.notify (.publish p)) :: call.countings)) := by
  have hb := begin_begins job setup s call
  generalize (s.begin job setup call).state = t at hb
  generalize (s.begin job setup call).result = result at hb
  cases hb with
  | asks hu hup => cases hu.symm.trans (use?_of_document? hd)
  | ignored hu hfallen => cases hu.symm.trans (use?_of_document? hd)
  | publishes hd' => exact ⟨_, rfl⟩
  | fails hu hb => cases hd.symm.trans (hb ht).2

namespace Course

/-! ## In a course -/

/-- Where the client always comes back, a problem or a visit fails just if its path begins with four
slashes, and any other has returned or waits for the client. -/
theorem Obliged.fails_iff {c : Course} {n : Nat} (h : Obliged job c)
    (hb : .began n call ∈ c.past) (hu : call.use? = none) :
    ((∃ e, .failed n e ∈ c.past) ↔ call.NamesFourSlashes) ∧
      (call.NamesFourSlashes ∨ .returned n ∈ c.past ∨ ∃ o ∈ c.openCalls, o.number = n ∧
        ∃ p, o.awaited = .back (.notify (.publish p)) call.countings) := by
  have hslashes : ∀ {e}, .failed n e ∈ c.past → call.NamesFourSlashes := fun hf =>
    ((document?_eq_error_iff hu).mp (h.document?_of_failed hb hu hf)).2
  rcases h.reached.kept.fate_of_publishing hb hu with ⟨e, hf⟩ | ⟨⟨doc, hd⟩, hfate⟩
  · exact ⟨⟨fun _ => hslashes hf, fun _ => ⟨e, hf⟩⟩, .inl (hslashes hf)⟩
  · have hnot : ¬ call.NamesFourSlashes := by
      intro hnames
      have hnone : call.document? job = some (.error .slashes) :=
        (document?_eq_error_iff hu).mpr ⟨rfl, hnames⟩
      cases hd.symm.trans hnone
    refine ⟨⟨?_, fun hnames => absurd hnames hnot⟩, .inr hfate⟩
    rintro ⟨e, hf⟩
    exact hslashes hf

end Course

end Session

namespace Rehearsal

open Session (Call Course begin_of_no_document begin_of_document document?_eq_error_iff
  exists_document?)
open Session.Course (Turn after ClientObliges obliged_after move_call_of_error)

variable {cast : Cast} {occur : Occurrence} {call : Call} {e : Fault}

/-! ## On the stage -/

/-- Nothing is raised at a publication: it goes over the connection, or whoever is there to see it
raises no error. -/
def PublishesCalmly (cast : Cast) (occur : Occurrence) : Prop :=
  cast.client = .connection ∨ ∀ s, (occur .publish s).2 = .ok ()

/-- A call that is refused leaves the stage as it is. -/
theorem makeCall_of_no_document (hd : call.document? cast.job = some (.error e)) (s : Stage) :
    makeCall cast occur call s = (s, .error e) := by
  unfold makeCall
  rw [begin_of_no_document hd]
  simp [Stage.markTraced, Post.markTraced]

theorem handOver_publication (ht : cast.setup.Timely) (hcalm : PublishesCalmly cast occur)
    (p : Publish Diagnostic) (s : Stage) :
    ∃ r, handOver cast occur (.notify (.publish p)) s = (r, .ok ()) := by
  unfold handOver give
  cases hclient : cast.client with
  | connection =>
    obtain ⟨written, hnotify⟩ := Post.notify_of_timely ht (.publish p) s.post
    simp only [hnotify]
    exact ⟨_, rfl⟩
  | recorder =>
    rcases hcalm with hconnection | hcalm
    · cases hclient.symm.trans hconnection
    · exact ⟨_, Prod.ext rfl (hcalm _)⟩

theorem finishActs_countings (cast : Cast) (occur : Occurrence) (call : Call) (s : Stage) :
    ∃ r, finishActs cast occur call.countings s = (r, .ok ()) := by
  unfold Session.Call.countings
  cases call.counted? with
  | none => exact ⟨s, rfl⟩
  | some severity => exact ⟨{ s with session := s.session.counted severity }, rfl⟩

/-- A call with a document comes to its end. -/
theorem makeCall_of_document (ht : cast.setup.Timely) (hcalm : PublishesCalmly cast occur)
    {doc : Document} (hd : call.document? cast.job = some (.ok doc)) (s : Stage) :
    ∃ r, makeCall cast occur call s = (r, .ok ()) := by
  obtain ⟨p, hp⟩ := begin_of_document ht hd s.session
  unfold makeCall
  simp only [hp, finishPlan, finishActs]
  obtain ⟨r, hr⟩ := handOver_publication ht hcalm p (Stage.markTraced
    (s.session.begin cast.job cast.setup call).written
    { s with session := (s.session.begin cast.job cast.setup call).state })
  rw [hr]
  exact finishActs_countings cast occur call r

theorem makeCall_fails_iff (ht : cast.setup.Timely) (hcalm : PublishesCalmly cast occur)
    (hu : call.use? = none) (s : Stage) :
    (∃ e, (makeCall cast occur call s).2 = .error e) ↔ call.NamesFourSlashes := by
  constructor
  · rintro ⟨e, he⟩
    obtain ⟨result, hd⟩ := exists_document? cast.job hu
    cases result with
    | error e => exact ((document?_eq_error_iff hu).mp hd).2
    | ok doc =>
      obtain ⟨r, hr⟩ := makeCall_of_document ht hcalm hd s
      rw [hr] at he
      cases he
  · intro hnames
    exact ⟨.slashes, by rw [makeCall_of_no_document ((document?_eq_error_iff hu).mpr ⟨rfl, hnames⟩)]⟩

/-! ## The law -/

/-- Where trace lines can be written and the client raises no error, a problem or a visit fails just
if its path begins with four slashes, so a problem without a file never fails. That holds at every
moment of every course, where any other such call has returned or waits for the client. It holds of
every stage too, whatever becomes of what is sent. A call that fails has handed nothing over and
traced nothing, and leaves the session, and the whole stage, as they were. -/
theorem only_a_path_with_four_slashes_is_refused (job : Job) :
    (∀ turns : List Turn, (∀ t ∈ turns, t.setup.Timely) → ClientObliges job turns →
        let c := after job turns
        ∀ n call, .began n call ∈ c.past → call.use? = none →
          ((∃ e, .failed n e ∈ c.past) ↔ call.NamesFourSlashes) ∧
            (call.NamesFourSlashes ∨ .returned n ∈ c.past ∨ ∃ o ∈ c.openCalls, o.number = n ∧
              ∃ p, o.awaited = .back (.notify (.publish p)) call.countings)) ∧
      (∀ (c : Course) (setup : Trace.Setup) (call : Call), call.use? = none →
        call.NamesFourSlashes →
          c.session.begin job setup call =
              { state := c.session, written := [], result := .error .slashes } ∧
            c.move job setup (.call call) =
              { c with
                begun := c.begun + 1
                past := c.past ++ [.began c.begun call, .failed c.begun .slashes] }) ∧
      ∀ (cast : Cast) (occur : Occurrence), cast.job = job → cast.setup.Timely →
        PublishesCalmly cast occur → ∀ (call : Call) (s : Stage), call.use? = none →
          ((∃ e, (makeCall cast occur call s).2 = .error e) ↔ call.NamesFourSlashes) ∧
            (call.NamesFourSlashes → makeCall cast occur call s = (s, .error .slashes)) := by
  refine ⟨?_, ?_, ?_⟩
  · intro turns ht hclient c n call hb hu
    exact (obliged_after ht hclient).fails_iff hb hu
  · intro c setup call hu hnames
    have hd : call.document? job = some (.error .slashes) :=
      (document?_eq_error_iff hu).mpr ⟨rfl, hnames⟩
    have hbegin := begin_of_no_document hd setup c.session
    refine ⟨hbegin, ?_⟩
    apply move_call_of_error
    · rw [hbegin]
    · rw [hbegin]
  · rintro cast occur rfl ht hcalm call s hu
    refine ⟨makeCall_fails_iff ht hcalm hu s, fun hnames => ?_⟩
    exact makeCall_of_no_document ((document?_eq_error_iff hu).mpr ⟨rfl, hnames⟩) s

theorem a_visit_is_refused_within_a_problem_without_a_file :
    let job : Job := { target := ⟨"file:///t"⟩, name := "t", task := { id := "1" } }
    let p : Problem := { severity := .error, message := "undefined", position := {} }
    let turns : List Turn :=
      [⟨{}, .call .start⟩, ⟨{}, .time 1⟩, ⟨{}, .raise (.raised "full")⟩, ⟨{}, .call (.ownProblem p)⟩,
        ⟨{}, .call (.visit "////a")⟩, ⟨{}, .back⟩]
    let c := after job turns
    let cast : Cast := { job, client := .connection }
    (∃ e, .failed 2 e ∈ c.past) ∧ (¬ ∃ e, .failed 1 e ∈ c.past) ∧
      (c.session.begin job {} (.visit "////a")).state = c.session ∧
      ∀ (occur : Occurrence) (s : Stage),
        makeCall cast occur (.visit "////a") s = (s, .error .slashes) ∧
          ¬ ∃ e, (makeCall cast occur (.ownProblem p) s).2 = .error e := by
  intro job p turns c cast
  have ht : ∀ t ∈ turns, t.setup.Timely := by
    show ∀ t ∈ turns, t.setup.style.timestamps = true →
      (Instant.ofClock? t.setup.clock).isSome = true
    decide +kernel
  have hobliges : ClientObliges job turns := by decide +kernel
  have hvisit : .began 2 (.visit "////a") ∈ c.past := by decide +kernel
  have hproblem : .began 1 (.ownProblem p) ∈ c.past := by decide +kernel
  have hslashes : (Call.visit "////a").NamesFourSlashes := ⟨"////a", rfl, by decide +kernel⟩
  have hnone : ¬ (Call.ownProblem p).NamesFourSlashes := by
    rintro ⟨path, hpath, -⟩
    cases hpath
  obtain ⟨hcourse, hrefused, hstage⟩ := only_a_path_with_four_slashes_is_refused job
  obtain ⟨hfails, -⟩ := hcourse turns ht hobliges 2 _ hvisit rfl
  obtain ⟨hlives, -⟩ := hcourse turns ht hobliges 1 _ hproblem rfl
  obtain ⟨hbegin, -⟩ := hrefused c {} _ rfl hslashes
  refine ⟨hfails.mpr hslashes, fun h => hnone (hlives.mp h), by rw [hbegin], fun occur s => ?_⟩
  have hcast : cast.setup.Timely := by
    intro hshown
    cases hshown
  obtain ⟨-, hleaves⟩ := hstage cast occur rfl hcast (.inl rfl) (.visit "////a") s rfl
  obtain ⟨hfails, -⟩ := hstage cast occur rfl hcast (.inl rfl) (.ownProblem p) s rfl
  exact ⟨hleaves hslashes, fun h => hnone (hfails.mp h)⟩

end Rehearsal

end BuildFeed
