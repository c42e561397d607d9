-- What stands on a board whose trace lines may fail. A document is known from the first operation
-- that touches it, even if that fails, and only what was to be said by that first one can be lost.
-- All that was said later stands, in the order of the operations, whatever became of their lines.
import Mathlib.Data.List.Induction
import BuildFeed.Board.History
import BuildFeed.Proofs.Board.Growth

namespace BuildFeed.Board

variable {δ : Type}

/-! ## Turns -/

/-- The document that an operation touches. -/
def Step.touched? : Step δ → Option String
  | .mention doc => some doc.uri
  | .add doc _ => some doc.uri
  | _ => none

/-- The document whose list an operation is to give. -/
def Step.asked? : Step δ → Option String
  | .get uri => some uri
  | step => step.touched?

/-- What an operation is to say of its document. -/
def Step.said : Step δ → List δ
  | .add _ d => [d]
  | _ => []

/-- An operation, and the world that trace calls see while it is done. -/
structure Turn (δ : Type) where
  setup : Trace.Setup
  step : Step δ

/-- The history that turns make of a new board. -/
def History.after (turns : List (Turn δ)) : History δ :=
  turns.foldl (fun h t => (h.perform t.setup t.step).state) {}

theorem History.after_append_singleton (turns : List (Turn δ)) (t : Turn δ) :
    History.after (turns ++ [t]) = ((History.after turns).perform t.setup t.step).state := by
  simp [History.after]

/-! ## What stands -/

/-- The turns that touch a document. -/
def touching (u : String) (turns : List (Turn δ)) : List (Turn δ) :=
  turns.filter (fun t => t.step.touched? = some u)

/-- What the first turn to touch a document says of it: nothing if the line of its creation cannot be
written. -/
def Turn.saidFirst (t : Turn δ) : List δ := if t.setup.Late .store then [] else t.step.said

/-- What stands of a document after the turns that touched it. -/
def standing : List (Turn δ) → Option (List δ)
  | [] => none
  | first :: rest => some (first.saidFirst ++ rest.flatMap (fun t => t.step.said))

theorem standing_eq_none {turns : List (Turn δ)} : standing turns = none ↔ turns = [] := by
  cases turns <;> simp [standing]

theorem standing_append_singleton (turns : List (Turn δ)) (t : Turn δ) :
    standing (turns ++ [t]) =
      some ((standing turns).getD [] ++
        if standing turns = none then t.saidFirst else t.step.said) := by
  cases turns with
  | nil => simp [standing]
  | cons first rest => simp [standing]

theorem touching_eq_nil {u : String} {turns : List (Turn δ)} :
    touching u turns = [] ↔ ∀ t ∈ turns, t.step.touched? ≠ some u := by
  simp [touching]

theorem touching_append_singleton (u : String) (turns : List (Turn δ)) (t : Turn δ) :
    touching u (turns ++ [t]) =
      touching u turns ++ if t.step.touched? = some u then [t] else [] := by
  unfold touching
  rw [List.filter_append]
  by_cases h : t.step.touched? = some u <;> simp [h]

namespace History

/-! ## What one turn does -/

/-- An operation on the board that gives a list, which is handed out. -/
def handing (h : History δ) (a : Attempt (Board δ) (List δ)) : Attempt (History δ) (Given δ) :=
  (a.within fun board => { h with board }).andThen fun h ds => h.hand (some ds)

theorem board_handing (h : History δ) (a : Attempt (Board δ) (List δ)) :
    (h.handing a).state.board = a.state := by
  unfold handing Attempt.andThen Attempt.within
  cases a.result <;> rfl

theorem result_handing (h : History δ) (a : Attempt (Board δ) (List δ)) :
    (h.handing a).result = a.result.map fun ds => .list (some ds) := by
  unfold handing Attempt.andThen Attempt.within
  cases a.result <;> rfl

/-- After a turn its document has its list with what the turn says of it, and nothing else has
changed. -/
theorem board_perform (h : History δ) (t : Turn δ) :
    (h.perform t.setup t.step).state.board =
      match t.step.touched? with
      | some u => h.board.grown u (if h.board.get? u = none then t.saidFirst else t.step.said)
      | none => h.board := by
  obtain ⟨setup, step⟩ := t
  cases step with
  | mention doc =>
    have hnothing : (if h.board.get? doc.uri = none then
        (Turn.mk setup (.mention doc : Step δ)).saidFirst else []) = [] := by
      simp [Turn.saidFirst, Step.said]
    show (h.handing (h.board.mention setup doc)).state.board = _
    rw [board_handing, mention_state]
    exact congrArg (h.board.grown doc.uri) hnothing.symm
  | add doc d =>
    show (h.handing (h.board.add setup doc d)).state.board = _
    rw [board_handing, add_state]
    apply congrArg (h.board.grown doc.uri)
    by_cases hnew : h.board.get? doc.uri = none <;> simp [hnew, Turn.saidFirst, Step.said]
  | _ => rfl

theorem get?_perform (h : History δ) (t : Turn δ) (u : String) :
    (h.perform t.setup t.step).state.board.get? u =
      if t.step.touched? = some u then
        some (h.board.get u ++ if h.board.get? u = none then t.saidFirst else t.step.said)
      else h.board.get? u := by
  rw [board_perform]
  cases htouched : t.step.touched? with
  | none => simp
  | some v =>
    simp only [get?_grown, Option.some.injEq]
    by_cases hu : u = v
    · subst hu
      simp
    · rw [if_neg hu, if_neg (Ne.symm hu)]

/-- A list that an operation gives stands on the board when it is given. -/
theorem get?_of_given {h : History δ} {setup : Trace.Setup} {step : Step δ} {u : String}
    {ds : List δ} (hasked : step.asked? = some u)
    (hgiven : (h.perform setup step).result = .ok (.list (some ds))) :
    (h.perform setup step).state.board.get? u = some ds := by
  cases step with
  | mention doc =>
    cases hasked
    change (h.handing (h.board.mention setup doc)).result = _ at hgiven
    show (h.handing (h.board.mention setup doc)).state.board.get? doc.uri = _
    rw [result_handing, mention_result] at hgiven
    rw [board_handing, mention_state, get?_grown, if_pos rfl]
    split at hgiven
    · cases hgiven
    · cases hgiven
      rw [List.append_nil]
  | add doc d =>
    cases hasked
    change (h.handing (h.board.add setup doc d)).result = _ at hgiven
    show (h.handing (h.board.add setup doc d)).state.board.get? doc.uri = _
    rw [result_handing, add_result] at hgiven
    rw [board_handing, add_state, get?_grown, if_pos rfl]
    split at hgiven
    · cases hgiven
    · rename_i hon
      cases hgiven
      rw [if_neg fun hlost => hon hlost.2]
  | get uri =>
    cases hasked
    exact Given.list.inj (Except.ok.inj hgiven)
  | _ => cases hasked

/-- A turn fails just if its line cannot be written and it has a line: an addition has one, and a
mention has one if the document is new. -/
theorem fails_iff (h : History δ) (t : Turn δ) :
    (∃ e, (h.perform t.setup t.step).result = .error e) ↔
      t.setup.Late .store ∧
        ((∃ doc d, t.step = .add doc d) ∨
          ∃ doc, t.step = .mention doc ∧ h.board.get? doc.uri = none) := by
  obtain ⟨setup, step⟩ := t
  cases step with
  | mention doc =>
    show (∃ e, (h.handing (h.board.mention setup doc)).result = .error e) ↔ _
    rw [result_handing, mention_result]
    by_cases hlost : h.board.get? doc.uri = none ∧ setup.Late .store
    · simp [hlost, Except.map]
    · rw [if_neg hlost]
      constructor
      · rintro ⟨e, he⟩
        cases he
      · rintro ⟨hlate, ⟨doc', d, heq⟩ | ⟨doc', heq, hnew⟩⟩
        · cases heq
        · cases heq
          exact absurd ⟨hnew, hlate⟩ hlost
  | add doc d =>
    show (∃ e, (h.handing (h.board.add setup doc d)).result = .error e) ↔ _
    rw [result_handing, add_result]
    by_cases hlate : setup.Late .store <;> simp [hlate, Except.map]
  | _ => simp [perform, hand]

/-! ## What all turns do -/

theorem get?_after (turns : List (Turn δ)) (u : String) :
    (after turns).board.get? u = standing (touching u turns) := by
  induction turns using List.reverseRecOn with
  | nil => rfl
  | append_singleton turns t ih =>
    rw [after_append_singleton, get?_perform, touching_append_singleton]
    by_cases htouched : t.step.touched? = some u
    · rw [if_pos htouched, if_pos htouched, standing_append_singleton, Board.get, ih]
    · rw [if_neg htouched, if_neg htouched, List.append_nil, ih]

theorem documents_after (turns : List (Turn δ)) :
    (after turns).board.documents = (turns.filterMap (·.step.touched?)).eraseDups := by
  induction turns using List.reverseRecOn with
  | nil => rfl
  | append_singleton turns t ih =>
    rw [after_append_singleton, board_perform, List.filterMap_append]
    cases htouched : t.step.touched? with
    | none => simp [htouched, ih]
    | some u =>
      simp only [List.filterMap_cons, List.filterMap_nil, htouched]
      rw [documents_grown, eraseDups_append_singleton, ih]
      simp

/-- What stands of a document only grows from turn to turn. -/
theorem get?_grows (early late : List (Turn δ)) {u : String} {ds : List δ}
    (h : (after early).board.get? u = some ds) :
    ∃ held, (after (early ++ late)).board.get? u = some held ∧ ds <+: held := by
  induction late using List.reverseRecOn with
  | nil => exact ⟨ds, by rwa [List.append_nil], List.prefix_refl ds⟩
  | append_singleton late t ih =>
    obtain ⟨held, hheld, hprefix⟩ := ih
    rw [← List.append_assoc, after_append_singleton, get?_perform]
    by_cases htouched : t.step.touched? = some u
    · rw [if_pos htouched, Board.get, hheld]
      exact ⟨_, rfl, hprefix.trans (List.prefix_append held _)⟩
    · rw [if_neg htouched]
      exact ⟨held, hheld, hprefix⟩

/-! ## The law -/

/-- A board is a log, whichever trace lines fail. A document has a list just if it was touched, and
the list is what was said by the turns that touched it, less what the first one was to say if the
line of the creation failed. The documents are those that were touched, in the order of the first
touch. Each turn leaves all other documents as they were, each list that was given for a document is
the beginning of what stands of it later, and a turn fails only for its line: a mention of a known
document gives its list and does nothing. -/
theorem a_board_is_a_log_whichever_lines_fail (turns : List (Turn δ)) :
    (∀ u, ((after turns).board.get? u = none ↔ ∀ t ∈ turns, t.step.touched? ≠ some u) ∧
        (after turns).board.get? u = standing (touching u turns)) ∧
      (after turns).board.documents = (turns.filterMap (·.step.touched?)).eraseDups ∧
      (after turns).board.size = (after turns).board.documents.length ∧
      ∀ early t late, turns = early ++ t :: late →
        let h := after early
        let done := h.perform t.setup t.step
        (∀ u, t.step.touched? ≠ some u → done.state.board.get? u = h.board.get? u) ∧
          (∀ u ds, t.step.asked? = some u → done.result = .ok (.list (some ds)) →
            ∃ held, (after turns).board.get? u = some held ∧ ds <+: held) ∧
          ((∃ e, done.result = .error e) ↔
            t.setup.Late .store ∧
              ((∃ doc d, t.step = .add doc d) ∨
                ∃ doc, t.step = .mention doc ∧ h.board.get? doc.uri = none)) ∧
          ∀ doc ds, t.step = .mention doc → h.board.get? doc.uri = some ds →
            done.result = .ok (.list (some ds)) ∧ done.state.board = h.board ∧
              done.written = [] := by
  refine ⟨fun u => ⟨?_, get?_after turns u⟩, documents_after turns, ?_, ?_⟩
  · rw [get?_after, standing_eq_none, touching_eq_nil]
  · simp [Board.size, Board.documents]
  · rintro early t late rfl
    refine ⟨?_, ?_, fails_iff (after early) t, ?_⟩
    · intro u htouched
      rw [get?_perform, if_neg htouched]
    · intro u ds hasked hgiven
      have hnow := get?_of_given hasked hgiven
      rw [← after_append_singleton] at hnow
      rw [List.append_cons]
      exact get?_grows (early ++ [t]) late hnow
    · intro doc ds hstep hknown
      simp only [hstep, perform, mention_of_get? hknown]
      exact ⟨rfl, rfl, rfl⟩

theorem a_word_is_lost_with_the_line_of_its_document :
    let late : Trace.Setup :=
      { switches := Trace.Switches.ofSetting (some "store"), style := { timestamps := true },
        clock := .ofInt 8640000000000001 }
    let a : Document := ⟨"file:///a"⟩
    let early : List (Turn String) := [⟨late, .add a "one"⟩, ⟨late, .add a "two"⟩]
    let again : Turn String := ⟨late, .mention a⟩
    let turns := early ++ again :: [⟨late, .mention ⟨"file:///b"⟩⟩, ⟨{}, .add a "three"⟩]
    (after turns).board.get? a.uri = some ["two", "three"] ∧
      (after turns).board.documents = ["file:///a", "file:///b"] ∧
      (∃ e, ((after []).perform late (.add a "one")).result = .error e) ∧
      ((after early).perform again.setup again.step).result = .ok (.list (some ["two"])) ∧
      ((after early).perform again.setup again.step).state.board = (after early).board ∧
      ((after early).perform again.setup again.step).written = [] ∧
      ∃ held, (after turns).board.get? a.uri = some held ∧ ["two"] <+: held := by
  intro late a early again turns
  obtain ⟨hget, hdocuments, -, hturn⟩ := a_board_is_a_log_whichever_lines_fail turns
  have hlate : late.Late .store := by decide +kernel
  have hknown : (after early).board.get? a.uri = some ["two"] := by decide +kernel
  obtain ⟨-, hgiven, -, hmention⟩ := hturn early again _ rfl
  obtain ⟨hlist, hboard, hwritten⟩ := hmention a ["two"] rfl hknown
  obtain ⟨-, -, hfails, -⟩ := hturn [] ⟨late, .add a "one"⟩ _ rfl
  have hstanding : standing (touching a.uri turns) = some ["two", "three"] := by decide +kernel
  have htouched : (turns.filterMap (·.step.touched?)).eraseDups = ["file:///a", "file:///b"] := by
    decide +kernel
  refine ⟨(hget a.uri).2.trans hstanding, hdocuments.trans htouched,
    hfails.mpr ⟨hlate, .inl ⟨a, "one", rfl⟩⟩, hlist, hboard, hwritten, ?_⟩
  exact hgiven a.uri ["two"] rfl hlist

end History

end BuildFeed.Board
