-- How a board grows. To mention a document and to say one thing more of it are one operation: some
-- list goes to the end of what stands there, and a document without a place gets the last one.
import BuildFeed.Board.Basic
import BuildFeed.Proofs.Entries.Order
import BuildFeed.Proofs.Trace.Plain

namespace BuildFeed

namespace Entries

variable {α : Type}

theorem put_of_lookup {key : String} {value : α} {entries : List (String × α)}
    (h : entries.lookup key = some value) : put key value entries = entries := by
  induction entries with
  | nil => simp at h
  | cons e rest ih =>
    obtain ⟨k, v⟩ := e
    rw [lookup_cons] at h
    unfold put
    split at h
    · rename_i hk
      rw [if_pos hk.symm, Option.some.inj h]
    · rename_i hk
      rw [if_neg (fun hk' => hk hk'.symm), ih h]

/-- Of two values for one key only the later one is left. -/
theorem put_put (key : String) (v w : α) (entries : List (String × α)) :
    put key w (put key v entries) = put key w entries := by
  induction entries with
  | nil => simp [put]
  | cons e rest ih =>
    obtain ⟨k, u⟩ := e
    by_cases hk : k = key
    · simp [put, hk]
    · simp [put, hk, ih]

end Entries

namespace Board

variable {δ : Type}

/-- The board with more said of one document, which gets a place by that if it has none. -/
def grown (b : Board δ) (uri : String) (more : List δ) : Board δ := b.put uri (b.get uri ++ more)

/-! ## Reading a grown board -/

theorem get_put (b : Board δ) (uri u : String) (ds : List δ) :
    (b.put uri ds).get u = if u = uri then ds else b.get u := by
  unfold get
  rw [get?_put]
  split <;> rfl

theorem get_grown (b : Board δ) (uri u : String) (more : List δ) :
    (b.grown uri more).get u = if u = uri then b.get u ++ more else b.get u := by
  unfold grown
  rw [get_put]
  split
  · rename_i h
    rw [h]
  · rfl

theorem get?_grown (b : Board δ) (uri u : String) (more : List δ) :
    (b.grown uri more).get? u = if u = uri then some (b.get uri ++ more) else b.get? u :=
  get?_put b uri u _

theorem documents_grown (b : Board δ) (uri : String) (more : List δ) :
    (b.grown uri more).documents =
      if uri ∈ b.documents then b.documents else b.documents ++ [uri] :=
  documents_put b uri _

/-! ## What the operations leave -/

/-- A list put where it already stands changes nothing. -/
theorem put_of_get? {b : Board δ} {uri : String} {ds : List δ} (h : b.get? uri = some ds) :
    b.put uri ds = b := by
  unfold put
  rw [Entries.put_of_lookup h]

/-- A document is mentioned even if the trace line of that fails. -/
theorem mention_state (setup : Trace.Setup) (doc : Document) (b : Board δ) :
    (b.mention setup doc).state = b.grown doc.uri [] := by
  unfold mention grown get
  cases h : b.get? doc.uri with
  | some ds =>
    simp only [Option.getD_some, List.append_nil]
    exact (put_of_get? h).symm
  | none =>
    simp only [Option.getD_none, List.append_nil]
    exact Attempt.note_state ..

/-- A document that is known is mentioned again without effect. -/
theorem mention_of_get? {doc : Document} {b : Board δ} {ds : List δ}
    (h : b.get? doc.uri = some ds) (setup : Trace.Setup) :
    b.mention setup doc = { state := b, result := .ok ds } := by
  unfold mention
  rw [h]

/-- Only a new document can fail to be mentioned. -/
theorem mention_result (setup : Trace.Setup) (doc : Document) (b : Board δ) :
    (b.mention setup doc).result =
      if b.get? doc.uri = none ∧ setup.Late .store then .error .clockOutOfReach
      else .ok (b.get doc.uri) := by
  cases h : b.get? doc.uri with
  | some ds =>
    rw [mention_of_get? h, if_neg (by simp)]
    simp [get, h]
  | none =>
    unfold mention
    simp only [h, true_and]
    rw [Attempt.note_result setup .store _ (by simp [Trace.Value.isPlain])]
    simp [get, h]

theorem eq_of_mention_ok {setup : Trace.Setup} {doc : Document} {b : Board δ} {ds : List δ}
    (h : (b.mention setup doc).result = .ok ds) : ds = b.get doc.uri := by
  rw [mention_result] at h
  split at h
  · cases h
  · exact (Except.ok.inj h).symm

theorem mention_of_timely {setup : Trace.Setup} (hs : setup.Timely) (doc : Document)
    (b : Board δ) : (b.mention setup doc).result = .ok (b.get doc.uri) := by
  rw [mention_result, if_neg fun h => hs.not_late .store h.2]

/-- Where a document can be mentioned, one thing more is said of it, even if the trace line of that
fails. -/
theorem add_of_mention_ok {setup : Trace.Setup} {doc : Document} {d : δ} {b : Board δ}
    (h : (b.mention setup doc).result = .ok (b.get doc.uri)) :
    (b.add setup doc d).state = b.grown doc.uri [d] ∧
      (b.add setup doc d).result =
        if setup.Late .store then .error .clockOutOfReach else .ok (b.get doc.uri ++ [d]) := by
  unfold add
  obtain ⟨hstate, hresult⟩ := Attempt.andThen_of_ok
    (fun (b : Board δ) current =>
      Attempt.note setup .store "append"
        [("uri", .string doc.uri), ("count", .number (current ++ [d]).length)]
        (b.put doc.uri (current ++ [d])) (current ++ [d])) h
  constructor
  · rw [hstate, Attempt.note_state, mention_state]
    unfold grown put
    rw [List.append_nil]
    exact congrArg Board.mk (Entries.put_put ..)
  · rw [hresult]
    exact Attempt.note_result setup .store _ (by simp [Trace.Value.isPlain]) _ _

/-- An addition fails just where its trace lines cannot be written. -/
theorem add_result (setup : Trace.Setup) (doc : Document) (d : δ) (b : Board δ) :
    (b.add setup doc d).result =
      if setup.Late .store then .error .clockOutOfReach else .ok (b.get doc.uri ++ [d]) := by
  have hmention := mention_result setup doc b
  split at hmention
  · rename_i hlost
    unfold add Attempt.andThen
    rw [hmention, if_pos hlost.2]
  · exact (add_of_mention_ok hmention).2

/-- What an addition leaves: the board with one thing more said of the document, unless the document
is new and its trace line fails. -/
theorem add_state (setup : Trace.Setup) (doc : Document) (d : δ) (b : Board δ) :
    (b.add setup doc d).state =
      b.grown doc.uri (if b.get? doc.uri = none ∧ setup.Late .store then [] else [d]) := by
  have hmention := mention_result setup doc b
  split at hmention
  · rename_i hlost
    rw [if_pos hlost, ← mention_state setup]
    unfold add Attempt.andThen
    rw [hmention]
  · rename_i hkept
    rw [if_neg hkept]
    exact (add_of_mention_ok hmention).1

/-- What an addition leaves if it goes well: the board with one thing more said of the document,
and the whole list of it. -/
theorem add_of_ok {setup : Trace.Setup} {doc : Document} {d : δ} {b : Board δ} {ds : List δ}
    (h : (b.add setup doc d).result = .ok ds) :
    (b.add setup doc d).state = b.grown doc.uri [d] ∧ ds = b.get doc.uri ++ [d] := by
  rw [add_result] at h
  split at h
  · cases h
  · rename_i hon
    rw [add_state, if_neg fun hlost => hon hlost.2]
    exact ⟨rfl, (Except.ok.inj h).symm⟩

theorem add_of_timely {setup : Trace.Setup} (hs : setup.Timely) (doc : Document) (d : δ)
    (b : Board δ) : (b.add setup doc d).result = .ok (b.get doc.uri ++ [d]) := by
  rw [add_result, if_neg (hs.not_late .store)]

end Board

end BuildFeed
