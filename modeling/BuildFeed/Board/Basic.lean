-- The board: what has been said of each document so far. A document gets its place when it is
-- first mentioned and keeps it; its list only ever grows at the end.
import BuildFeed.Attempt
import BuildFeed.Document

namespace BuildFeed

/-- The lists of all documents, each under its URI, in the order of first mention. -/
structure Board (δ : Type) where
  lists : List (String × List δ) := []
  deriving Inhabited

namespace Board

variable {δ : Type}

/-! ## Reading -/

/-- The list of a document, if it has been mentioned. -/
def get? (b : Board δ) (uri : String) : Option (List δ) := b.lists.lookup uri

/-- The list of a document; nothing has been said of one that was not mentioned. -/
def get (b : Board δ) (uri : String) : List δ := (b.get? uri).getD []

/-- All documents, in the order of first mention. -/
def documents (b : Board δ) : List String := b.lists.map Prod.fst

/-- How many documents there are. -/
def size (b : Board δ) : Nat := b.lists.length

/-- How much has been said of each document. -/
def sizes (b : Board δ) : List (String × Nat) := b.lists.map (fun (uri, ds) => (uri, ds.length))

/-! ## Writing -/

/-- The board with a list in the place of its document, at the end if it has none yet. -/
def put (b : Board δ) (uri : String) (ds : List δ) : Board δ := ⟨Entries.put uri ds b.lists⟩

/-- The list that was put in place is there, and all others are as they were. -/
theorem get?_put (b : Board δ) (uri u : String) (ds : List δ) :
    (b.put uri ds).get? u = if u = uri then some ds else b.get? u :=
  Entries.lookup_put uri u ds b.lists

/-- A document that has a place keeps it, and a new one gets the last. -/
theorem documents_put (b : Board δ) (uri : String) (ds : List δ) :
    (b.put uri ds).documents =
      if uri ∈ b.documents then b.documents else b.documents ++ [uri] :=
  Entries.keys_put uri ds b.lists

/-- The list of a document, which is mentioned with that if it was not before. -/
def mention (setup : Trace.Setup) (doc : Document) (b : Board δ) : Attempt (Board δ) (List δ) :=
  match b.get? doc.uri with
  | some ds => { state := b, result := .ok ds }
  | none =>
    .note setup .store "ensure.created" [("uri", .string doc.uri)] (b.put doc.uri []) []

/-- Say one thing more of a document; the result is its whole list. -/
def add (setup : Trace.Setup) (doc : Document) (d : δ) (b : Board δ) :
    Attempt (Board δ) (List δ) :=
  (b.mention setup doc).andThen fun b current =>
    let next := current ++ [d]
    .note setup .store "append" [("uri", .string doc.uri), ("count", .number next.length)]
      (b.put doc.uri next) next

end Board

end BuildFeed
