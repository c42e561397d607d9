-- The accounts of a rehearsal. Nothing that a session hands over tells of a failure, so whatever
-- interrupts what, and whenever failed sends are dealt with, the accounts of the post stay right.
import BuildFeed.Proofs.Delivery.Accounts
import BuildFeed.Proofs.Rehearsal.SideBySide

namespace BuildFeed.Rehearsal

open Session (Handover)
open Post (Accounted)

variable {opening : Connection} {kind : Event Diagnostic → Bool} {before : List (Event Diagnostic)}
  {cast : Cast} {s : Stage}

/-- A kind of words of which nothing is handed over by a session. -/
structure Unspoken (logger : Logger) (kind : Event Diagnostic → Bool) : Prop where
  spares : Post.Spares kind
  calm : ∀ level message e, level ≠ .error →
    Post.told? logger level message = some e → kind e = false

theorem unspoken_isConsequence (logger : Logger) : Unspoken logger Event.isConsequence where
  spares := Post.spares_isConsequence
  calm _ _ _ hl ht := Post.not_isConsequence_of_told? hl ht

/-- A silent logger has nothing to say at all. -/
theorem unspoken_isWord : Unspoken .silent Event.isWord where
  spares _ he := he
  calm _ _ _ _ ht := by cases ht

/-! ## Steps -/

theorem not_isWord_of_isSign {e : Event Diagnostic} (he : isSign e = true) : e.isWord = false := by
  cases e <;> first | rfl | cases he

theorem mark_eq_happen {e : Event Diagnostic} (he : isSign e = true) (p : Post Diagnostic) :
    p.mark e = p.happen e := by
  cases e <;> first | rfl | cases he

theorem accounted_give (hk : Unspoken cast.logger kind) {h : Handover} (hcalm : Calm h)
    (ha : Accounted cast.logger opening kind before s.post) :
    Accounted cast.logger opening kind before (give cast h s).1.post := by
  cases h with
  | log level message =>
    have hlevel : level ≠ .error := by
      rintro rfl
      exact hcalm
    exact ha.log fun e ht => hk.calm level message e hlevel ht
  | notify n =>
    unfold give
    simp only
    split
    · exact ha.happen (e := .notified n) (hk.spares _ rfl)
    · exact ha.notify hk.spares cast.setup n

theorem accounted_dispose (hs : isScripted opening = true) {p : Post Diagnostic}
    (ha : Accounted cast.logger opening kind before p) :
    Accounted cast.logger opening kind before
      { p with connection := p.connection.dispose } := by
  have hscripted : isScripted p.connection = true := by
    rw [ha.connection]
    exact isScripted_after hs _
  rw [dispose_of_isScripted hscripted]
  exact ha

/-- A cast by itself keeps the accounts of its post. -/
theorem tandem_of_accounts (hk : Unspoken cast.logger kind) (hs : isScripted opening = true) :
    Tandem (fun _ => true) True
      (fun p _ => Accounted cast.logger opening kind before p) cast cast where
  job := rfl
  wall := rfl
  state _ _ := rfl
  result _ _ := rfl
  trace _ _ _ _ ha := ha.markTraced hk.spares _
  sign := by
    intro e p _ he ha
    rw [mark_eq_happen he]
    exact ha.happen (hk.spares _ (not_isWord_of_isSign he))
  give _ _ _ hcalm ha := accounted_give hk hcalm ha
  answer h s t := by rw [give_answer cast h s t]
  drain _ _ _ ha := ha.drain
  dispose _ _ ha := accounted_dispose hs ha

/-! ## Plays -/

theorem accounted_play (hk : Unspoken cast.logger kind) (hs : isScripted opening = true)
    (interruptions : List Interruption) (steps : List Step)
    (ha : Accounted cast.logger opening kind before s.post.fresh) :
    Accounted cast.logger opening kind
      (before ++ (play cast interruptions steps s).1.flatMap (fun r => r.events))
      (play cast interruptions steps s).2.post.fresh := by
  induction steps generalizing before s with
  | nil => simpa [play] using ha
  | cons step rest ih =>
    have hall : Admitted (fun _ => true) True interruptions := fun i _ => ⟨rfl, fun _ => trivial⟩
    have hstage : Abreast (fun _ => true)
        (fun p _ => Accounted cast.logger opening kind before p) s.fresh s.fresh :=
      ⟨rfl, rfl, fun _ _ => rfl, ha⟩
    have htandem : Tandem (fun _ => true) True
        (fun p _ => Accounted cast.logger opening kind before p) cast cast :=
      tandem_of_accounts hk hs
    have hstep : step = .drain → True := fun _ => trivial
    have hdone := doStep_alike htandem (occur_alike htandem hall) hstep hstage
    have hrest := ih hdone.stage.post.fresh
    unfold play
    simp only [List.flatMap_cons]
    rwa [← List.append_assoc]

/-! ## The law -/

/-- The failures of all sends among events, over a connection with a script. -/
def failuresOf {δ : Type} (outcomes : List Outcome) (events : List (Event δ)) : List Failure :=
  (Connection.scripted outcomes).failures (Event.sends events)

end BuildFeed.Rehearsal
