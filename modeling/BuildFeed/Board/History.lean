-- A history of a board: operations one after the other, with everything they handed out kept.
-- A list that was handed out stays what it was, whatever is done later.
import BuildFeed.Board.Basic

namespace BuildFeed.Board

variable {δ : Type}

/-- One operation on a board. -/
inductive Step (δ : Type) where
  | mention (doc : Document)
  | add (doc : Document) (d : δ)
  | get (uri : String)
  | documents
  /-- Look again at the list that was handed out as the `index`-th, counted from zero. -/
  | recall (index : Nat)
  deriving Inhabited

/-- What an operation gives. -/
inductive Given (δ : Type) where
  | list (ds : Option (List δ))
  | documents (uris : List String)
  deriving Inhabited

/-- A board and the lists that it handed out, the first one first. -/
structure History (δ : Type) where
  board : Board δ := {}
  handedOut : List (Option (List δ)) := []
  deriving Inhabited

namespace History

/-- Hand out a list and keep it. -/
def hand (h : History δ) (ds : Option (List δ)) : Attempt (History δ) (Given δ) :=
  { state := { h with handedOut := h.handedOut ++ [ds] }, result := .ok (.list ds) }

/-- Do one operation. -/
def perform (setup : Trace.Setup) (h : History δ) : Step δ → Attempt (History δ) (Given δ)
  | .mention doc =>
    ((h.board.mention setup doc).within (fun board => { h with board })).andThen
      fun h ds => h.hand (some ds)
  | .add doc d =>
    ((h.board.add setup doc d).within (fun board => { h with board })).andThen
      fun h ds => h.hand (some ds)
  | .get uri => h.hand (h.board.get? uri)
  | .documents => { state := h, result := .ok (.documents h.board.documents) }
  | .recall index => { state := h, result := .ok (.list (h.handedOut[index]?).join) }

/-- Do all operations in turn, and see after each one how it went. -/
def run (setup : Trace.Setup) (h : History δ) : List (Step δ) → List (Attempt (History δ) (Given δ))
  | [] => []
  | step :: rest =>
    let done := h.perform setup step
    done :: run setup done.state rest

end History

end BuildFeed.Board
