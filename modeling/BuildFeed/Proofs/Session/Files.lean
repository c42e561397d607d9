-- What is said of each file and of the target. A document shows what the calls about it have said,
-- in the order in which they began. A file is known by its absolute path, and where the target's
-- URI has a query or a fragment no file can be taken for the target.
import BuildFeed.Proofs.Document.Paths
import BuildFeed.Proofs.Session.Workers

namespace BuildFeed.Session

/-! ## Problems and paths -/

/-- The problem that a call reports. -/
def Call.problem? : Call → Option Problem
  | .problem _ p => some p
  | .ownProblem p => some p
  | _ => none

/-- The path that a call names. -/
def Call.path? : Call → Option String
  | .problem _ p => p.position.file
  | .ownProblem p => p.position.file
  | .visit path => some path
  | _ => none

theorem Call.path?_of_problem? {call : Call} {p : Problem} (h : call.problem? = some p) :
    call.path? = p.position.file := by
  cases call <;> cases h <;> rfl

theorem Call.document?_of_problem? (job : Job) {call : Call} {p : Problem}
    (h : call.problem? = some p) :
    call.document? job = some (Document.ofPosition p.position job.target) := by
  cases call <;> cases h <;> rfl

theorem Call.diagnostics_eq (call : Call) :
    call.diagnostics = call.problem?.toList.map Diagnostic.ofProblem := by
  cases call <;> rfl

/-- What calls say of the problems that are `about` something. -/
def saidOf (about : Problem → Bool) (cs : List Call) : List Diagnostic :=
  ((cs.filterMap Call.problem?).filter about).map Diagnostic.ofProblem

theorem saidOf_cons (about : Problem → Bool) (call : Call) (cs : List Call) :
    saidOf about (call :: cs) =
      (call.problem?.toList.filter about).map Diagnostic.ofProblem ++ saidOf about cs := by
  unfold saidOf
  cases hp : call.problem? with
  | none => simp [hp]
  | some p => by_cases ha : about p <;> simp [hp, ha]

namespace Course

variable {job : Job} {c : Course}

/-! ## The list of one document -/

theorem lastFor_series (job : Job) (u : String) (cs : List Call) :
    lastFor u (series job u cs) = cs.flatMap Call.diagnostics := by
  induction cs using List.reverseRecOn with
  | nil => rfl
  | append_singleton cs call ih =>
    rw [series_append_singleton, lastFor_append_singleton, ih, List.flatMap_append]
    simp [publication]

/-- The list of a document is what the calls about it have said, one after the other. -/
theorem Reached.get_eq (h : Reached job Trace.Setup.Timely c) (u : String) :
    c.session.board.get u = (callsFor job u (order c.past)).flatMap Call.diagnostics := by
  rw [h.board.1, ← lastFor_publishedFor, h.publishedFor_eq, lastFor_series]

/-- Let the problems of the calls that are about a document be those that are `about` something.
Then the document's calls say of it just what is said of that. -/
theorem flatMap_callsFor {u : String} {about : Problem → Bool} {cs : List Call}
    (h : ∀ call ∈ cs, ∀ p, call.problem? = some p →
      (ownDocument? job call = some ⟨u⟩ ↔ about p = true)) :
    (callsFor job u cs).flatMap Call.diagnostics = saidOf about cs := by
  induction cs with
  | nil => rfl
  | cons call cs ih =>
    have hrest := ih fun other hmem => h other (List.mem_cons_of_mem _ hmem)
    have hfirst := h call List.mem_cons_self
    rw [saidOf_cons, ← hrest]
    cases hp : call.problem? with
    | none =>
      have hnone : call.diagnostics = [] := by rw [call.diagnostics_eq, hp]; rfl
      by_cases hown : ownDocument? job call = some ⟨u⟩ <;> simp [callsFor, hown, hnone]
    | some p =>
      have hsome : call.diagnostics = [Diagnostic.ofProblem p] := by
        rw [call.diagnostics_eq, hp]
        rfl
      by_cases hown : ownDocument? job call = some ⟨u⟩
      · have habout := (hfirst p hp).mp hown
        simp [callsFor, hown, hsome, habout]
      · have habout : about p = false := by
          rw [← Bool.not_eq_true, ← hfirst p hp]
          exact hown
        simp [callsFor, hown, habout]

/-! ## The document of a problem -/

/-- If a call names a path, there is no host in it. -/
def NamesNoHost (call : Call) : Prop :=
  ∀ path, call.path? = some path → FileUri.startsWithSlashes path.toList = false

/-- The document of a problem: that of its file's absolute path, or else the target's. -/
def plainDocument (target : Target) (p : Problem) : Document :=
  match p.position.file with
  | some path => Document.ofAbsolute (Document.absolute path)
  | none => ⟨target.uri⟩

/-- A target that no file can be taken for: its URI has a query or a fragment. -/
def Apart (target : Target) : Prop := '?' ∈ target.uri.toList ∨ '#' ∈ target.uri.toList

theorem Apart.ne_ofAbsolute {target : Target} (h : Apart target) (path : List Char) :
    Document.ofAbsolute path ≠ ⟨target.uri⟩ := by
  intro heq
  have huri : (Document.ofAbsolute path).uri = target.uri := by rw [heq]
  rcases h with hquery | hfragment
  · exact Document.not_mem_uri_ofAbsolute path (.inl rfl) (huri ▸ hquery)
  · exact Document.not_mem_uri_ofAbsolute path (.inr rfl) (huri ▸ hfragment)

theorem ownDocument?_of_problem? (job : Job) {call : Call} {p : Problem}
    (hp : call.problem? = some p) (h : NamesNoHost call) :
    ownDocument? job call = some (plainDocument job.target p) := by
  refine ownDocument?_of_ok ?_
  rw [call.document?_of_problem? job hp]
  unfold Document.ofPosition plainDocument
  have hpath := call.path?_of_problem? hp
  cases hfile : p.position.file with
  | none => rfl
  | some path =>
    rw [hfile] at hpath
    exact congrArg some (Document.ofPath_of_no_host (h path hpath))

theorem plainDocument_eq_target {target : Target} (h : Apart target) (p : Problem) :
    plainDocument target p = ⟨target.uri⟩ ↔ p.position.file = none := by
  unfold plainDocument
  cases p.position.file with
  | none => simp
  | some path => simpa using h.ne_ofAbsolute (Document.absolute path)

theorem plainDocument_eq_file {target : Target} (h : Apart target) (p : Problem)
    (path : List Char) :
    plainDocument target p = Document.ofAbsolute path ↔
      p.position.file.map Document.absolute = some path := by
  unfold plainDocument
  cases p.position.file with
  | none => simpa using (h.ne_ofAbsolute path).symm
  | some other => simp [Document.ofAbsolute_injective.eq_iff]

/-! ## The law -/

/-- Let the target's URI have a query or a fragment and no path name a host. Then at every moment of
every course the target's list is made of all problems without a file, and the list of each path of
the problems with a file whose absolute path is the same, all in the order in which the calls
began. -/
theorem files_and_the_target_never_mix (job : Job) {turns : List Turn}
    (ht : ∀ t ∈ turns, t.setup.Timely)
    (htarget : '?' ∈ job.target.uri.toList ∨ '#' ∈ job.target.uri.toList)
    (hpaths : ∀ call ∈ order (after job turns).past, ∀ path, call.path? = some path →
      FileUri.startsWithSlashes path.toList = false) :
    let c := after job turns
    c.session.answer job (.diagnostics job.target.uri) =
        .diagnostics (saidOf (fun p => p.position.file = none) (order c.past)) ∧
      ∀ path, FileUri.startsWithSlashes path.toList = false →
        ∃ doc, Document.ofPath path = .ok doc ∧
          c.session.answer job (.diagnostics doc.uri) =
            .diagnostics (saidOf (fun p => p.position.file.map Document.absolute =
              some (Document.absolute path)) (order c.past)) := by
  intro c
  have hc : Reached job Trace.Setup.Timely c := reached_after job ht
  have hapart : Apart job.target := htarget
  refine ⟨congrArg Answer.diagnostics ?_, fun path hpath =>
    ⟨_, Document.ofPath_of_no_host hpath, congrArg Answer.diagnostics ?_⟩⟩
  · rw [hc.get_eq]
    refine flatMap_callsFor fun call hmem p hp => ?_
    rw [ownDocument?_of_problem? job hp (hpaths call hmem), Option.some.injEq,
      plainDocument_eq_target hapart, decide_eq_true_iff]
  · rw [hc.get_eq]
    refine flatMap_callsFor fun call hmem p hp => ?_
    rw [ownDocument?_of_problem? job hp (hpaths call hmem), Option.some.injEq,
      plainDocument_eq_file hapart, decide_eq_true_iff]

theorem one_file_under_two_paths_beside_a_target_with_a_query :
    let job : Job := { target := ⟨"file:///c%3A/a?x"⟩, name := "t", task := { id := "1" } }
    let p (message : String) (file : Option String) : Problem :=
      { severity := .warning, message, position := { file } }
    let shown (t : Int) : Trace.Setup := { style := { timestamps := true }, clock := .ofInt t }
    let turns : List Turn :=
      [⟨shown 1, .call (.problem .error (p "one" (some "C:/a")))⟩,
        ⟨shown 2, .call (.visit "/C:/a")⟩, ⟨shown 3, .call (.ownProblem (p "two" none))⟩,
        ⟨shown 4, .raise (.raised "closed")⟩,
        ⟨shown 5, .call (.problem .info (p "three" (some "c:/a?x")))⟩, ⟨shown 6, .back⟩,
        ⟨shown 7, .back⟩, ⟨shown 8, .call (.ownProblem (p "four" (some "/c:/a")))⟩]
    let c := after job turns
    let said (message : String) (file : Option String) := Diagnostic.ofProblem (p message file)
    c.session.board.documents = ["file:///c%3A/a", "file:///c%3A/a?x", "file:///c%3A/a%3Fx"] ∧
      saidOf (fun p => p.position.file = none) (order c.past) = [said "two" none] ∧
      saidOf (fun p => p.position.file.map Document.absolute =
          some (Document.absolute "c:/a")) (order c.past) =
        [said "one" (some "C:/a"), said "four" (some "/c:/a")] ∧
      c.session.answer job (.diagnostics job.target.uri) = .diagnostics [said "two" none] ∧
      ∃ doc, Document.ofPath "c:/a" = .ok doc ∧
        c.session.answer job (.diagnostics doc.uri) =
          .diagnostics [said "one" (some "C:/a"), said "four" (some "/c:/a")] := by
  intro job p shown turns c said
  have ht : ∀ t ∈ turns, t.setup.Timely := by
    show ∀ t ∈ turns, t.setup.style.timestamps = true →
      (Instant.ofClock? t.setup.clock).isSome = true
    decide +kernel
  have hpaths : ∀ call ∈ order c.past, ∀ path, call.path? = some path →
      FileUri.startsWithSlashes path.toList = false := by
    have hall : ∀ call ∈ order c.past, ∀ path ∈ call.path?.toList,
        FileUri.startsWithSlashes path.toList = false := by
      decide +kernel
    exact fun call hcall path hpath => hall call hcall path (by simp [hpath])
  have htarget : saidOf (fun p => p.position.file = none) (order c.past) = [said "two" none] := by
    decide +kernel
  have hfile : saidOf (fun p => p.position.file.map Document.absolute =
        some (Document.absolute "c:/a")) (order c.past) =
      [said "one" (some "C:/a"), said "four" (some "/c:/a")] := by
    decide +kernel
  obtain ⟨hdiagnostics, hfiles⟩ :=
    files_and_the_target_never_mix job ht (.inl (by decide +kernel)) hpaths
  refine ⟨by decide +kernel, htarget, hfile, hdiagnostics.trans (by rw [htarget]), ?_⟩
  obtain ⟨doc, hdoc, hanswer⟩ := hfiles "c:/a" (by decide +kernel)
  exact ⟨doc, hdoc, hanswer.trans (by rw [hfile])⟩

end Course

end BuildFeed.Session
