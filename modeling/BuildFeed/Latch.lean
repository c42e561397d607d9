-- A latch falls once. Only the first to let it fall is told that it did.

namespace BuildFeed

/-- A latch that has fallen or not. -/
structure Latch where
  fallen : Bool := false
  deriving DecidableEq, Inhabited

/-- Let the latch fall. The answer is whether it was still up. -/
def Latch.fall (l : Latch) : Bool × Latch := (!l.fallen, ⟨true⟩)

/-- Whoever lets a latch fall, it has fallen, and the next is told that it had. -/
theorem Latch.fall_fall (l : Latch) : l.fall.2.fall.1 = false := rfl

/-- One operation on a latch. -/
inductive Latch.Step where
  | fall
  | look
  deriving DecidableEq, Inhabited

/-- The answers to operations one after the other. -/
def Latch.run (l : Latch) : List Latch.Step → List Bool
  | [] => []
  | .fall :: rest => l.fall.1 :: run l.fall.2 rest
  | .look :: rest => l.fallen :: run l rest

end BuildFeed
