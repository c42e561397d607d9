-- How many problems of each severity there were.
import BuildFeed.Problem

namespace BuildFeed

/-- The counts by severity. -/
structure Tally where
  errors : Nat := 0
  warnings : Nat := 0
  infos : Nat := 0
  deriving DecidableEq, Inhabited

/-- One problem more. -/
def Tally.count (t : Tally) : Severity → Tally
  | .error => { t with errors := t.errors + 1 }
  | .warning => { t with warnings := t.warnings + 1 }
  | .info => { t with infos := t.infos + 1 }

/-- The count of one severity. -/
def Tally.of (t : Tally) : Severity → Nat
  | .error => t.errors
  | .warning => t.warnings
  | .info => t.infos

/-- A problem is counted under its own severity and under no other. -/
theorem Tally.of_count (t : Tally) (s r : Severity) :
    (t.count s).of r = t.of r + if s = r then 1 else 0 := by
  cases s <;> cases r <;> simp [count, of]

/-! ## Histories -/

/-- One operation on a tally. -/
inductive Tally.Step where
  | count (s : Severity)
  /-- Take down the counts as they are. -/
  | note
  /-- Look again at what was taken down as the `index`-th, counted from zero. -/
  | recall (index : Nat)
  deriving DecidableEq, Inhabited

/-- The counts that are seen after each operation, where `noted` has been taken down so far. -/
def Tally.run (noted : List Tally) (t : Tally) : List Tally.Step → List Tally
  | [] => []
  | .count s :: rest => t.count s :: run noted (t.count s) rest
  | .note :: rest => t :: run (noted ++ [t]) t rest
  | .recall index :: rest => noted[index]?.getD t :: run noted t rest

end BuildFeed
