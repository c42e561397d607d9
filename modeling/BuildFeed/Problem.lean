-- What a compiler reports: a severity, a message and as much of a position as it knows.
import BuildFeed.Number.Basic

namespace BuildFeed

/-- How bad a problem is. -/
inductive Severity where
  | error
  | warning
  | info
  deriving DecidableEq, Inhabited

/-- Where a problem is. Lines count from 1 and columns from 0; every part may be unknown. -/
structure Position where
  /-- The path of the file; a problem without one belongs to the target as a whole. -/
  file : Option String := none
  line : Option Number := none
  startLine : Option Number := none
  startColumn : Option Number := none
  endLine : Option Number := none
  endColumn : Option Number := none
  /-- The column of the caret where only a point is known. -/
  pointer : Option Number := none
  deriving DecidableEq, Inhabited

/-- A problem in the compiled code. -/
structure Problem where
  severity : Severity
  message : String
  position : Position
  code : Option String := none
  /-- The compiler's own grouping, which goes no further. -/
  category : Option String := none
  deriving DecidableEq, Inhabited

end BuildFeed
