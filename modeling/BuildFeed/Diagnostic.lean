-- Problems as an editor gets them. A line moves from counting from 1 to counting from 0, and
-- an unknown end of the range falls back on the line or caret, then on the start: a problem
-- that knows only its caret marks a point and not a span.
import BuildFeed.Problem
import BuildFeed.Json

namespace BuildFeed

/-! ## Ranges -/

/-- A place in a document, line and character counted from 0. -/
structure Point where
  line : Number
  character : Number
  deriving DecidableEq, Inhabited

/-- A stretch of a document. -/
structure Range where
  start : Point
  stop : Point
  deriving DecidableEq, Inhabited

/-- A line counted from 1, counted from 0. -/
def lineFromZero (line : Number) : Number := line - 1

/-- The range that a position marks. -/
def Range.ofPosition (p : Position) : Range :=
  let line := p.line.map lineFromZero
  let startLine := ((p.startLine.map lineFromZero).or line).getD 0
  let startCharacter := (p.startColumn.or p.pointer).getD 0
  let endLine := ((p.endLine.map lineFromZero).or line).getD startLine
  let endCharacter := (p.endColumn.or p.pointer).getD startCharacter
  { start := ⟨startLine, startCharacter⟩
    stop := ⟨endLine, endCharacter⟩ }

/-! ## Diagnostics -/

/-- The number of a severity in the protocol. -/
def Severity.number : Severity → Nat
  | .error => 1
  | .warning => 2
  | .info => 3

/-- What every diagnostic names as its source. -/
def sourceName : String := "compile-reporter"

/-- A problem in the protocol's terms. -/
structure Diagnostic where
  range : Range
  message : String
  severity : Severity
  source : String := sourceName
  code : Option String := none
  deriving DecidableEq, Inhabited

/-- The diagnostic of a problem. -/
def Diagnostic.ofProblem (p : Problem) : Diagnostic :=
  { range := Range.ofPosition p.position
    message := p.message
    severity := p.severity
    code := p.code }

/-! ## JSON -/

/-- A place as JSON. -/
def Point.toJson (p : Point) : Json :=
  .object [("line", .number p.line), ("character", .number p.character)]

/-- A range as JSON. -/
def Range.toJson (r : Range) : Json :=
  .object [("start", r.start.toJson), ("end", r.stop.toJson)]

/-- A diagnostic as JSON. -/
def Diagnostic.toJson (d : Diagnostic) : Json :=
  .object ([("range", d.range.toJson), ("message", .string d.message),
    ("severity", .nat d.severity.number), ("source", .string d.source)] ++
    Json.optional "code" Json.string d.code)

end BuildFeed
