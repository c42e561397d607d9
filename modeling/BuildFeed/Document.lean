-- Documents and targets by their URIs. A file's document is known by its path as a file URI, and a
-- problem without a file belongs to the target.
import BuildFeed.FileUri
import BuildFeed.Json
import BuildFeed.Problem

namespace BuildFeed

/-- A text document, known by its URI. -/
structure Document where
  uri : String
  deriving DecidableEq, Inhabited

/-- A build target, known by its URI. -/
structure Target where
  uri : String
  deriving DecidableEq, Inhabited

/-- A document as JSON. -/
def Document.toJson (d : Document) : Json := .object [("uri", .string d.uri)]

/-- A target as JSON. -/
def Target.toJson (t : Target) : Json := .object [("uri", .string t.uri)]

namespace Document

/-- The document of a file path, named by what `write` makes of the path. -/
def ofFile (write : String → Except Fault String) (path : String) : Except Fault Document :=
  (write path).map Document.mk

/-- The document of a file path. -/
def ofPath (path : String) : Except Fault Document := ofFile FileUri.write path

/-- The document that a problem belongs to: its file, or else the target itself. -/
def ofPosition (p : Position) (target : Target) : Except Fault Document :=
  match p.file with
  | some path => ofPath path
  | none => .ok ⟨target.uri⟩

end Document

end BuildFeed
