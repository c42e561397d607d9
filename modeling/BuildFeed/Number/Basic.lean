-- Numbers as the protocol carries them: binary64 values, held exactly. A finite number is a
-- whole count of the smallest step 2^-1074, so equality and order are those of the integers.
-- Every operation works out its exact result first and rounds it once: 53 significant bits
-- are kept, the nearer neighbour is taken, and a tie goes to the even one.

namespace BuildFeed

/-- A binary64 value. The two zeros are one number here: nothing that is written tells them
apart. -/
inductive Number where
  | nan
  | infinite (negative : Bool)
  | finite (steps : Int)
  deriving DecidableEq, Inhabited

namespace Number

/-! ## The grid -/

/-- How many steps make one. -/
def unit : Nat := Nat.pow 2 1074

/-- The least magnitude, in steps, that no finite number reaches. -/
def overflow : Nat := Nat.pow 2 (1024 + 1074)

/-- How many significant bits a finite number keeps. -/
def significantBits : Nat := 53

/-- The whole number nearest to `num / den`; of two equally near, the even one. -/
def nearest (num den : Nat) : Nat :=
  let q := num / den
  let r := num % den
  if 2 * r < den then q
  else if den < 2 * r then q + 1
  else if q % 2 = 0 then q else q + 1

/-- The spacing, in steps, of the numbers near a magnitude of `steps` steps: as many low bits
go as there are bits above the 53 that stay. -/
def grain (steps : Nat) : Nat :=
  Nat.pow 2 (steps.log2 + 1 - significantBits)

/-- The magnitude nearest to `num / den` steps. -/
def rounded (num den : Nat) : Nat :=
  let g := grain (num / den)
  nearest num (den * g) * g

/-- The number nearest to a signed quotient of steps; past the largest one it is infinite. -/
def ofQuotient (negative : Bool) (num den : Nat) : Number :=
  let steps := rounded num den
  if overflow ≤ steps then .infinite negative
  else .finite (if negative then -steps else steps)

/-! ## Reading and arithmetic -/

/-- The number nearest to an integer. -/
def ofInt (n : Int) : Number :=
  ofQuotient (n < 0) (n.natAbs * unit) 1

/-- The number nearest to `digits / 10^places`. -/
def ofDecimal (digits : Int) (places : Nat) : Number :=
  ofQuotient (digits < 0) (digits.natAbs * unit) (Nat.pow 10 places)

instance (n : Nat) : OfNat Number n := ⟨ofInt n⟩

instance : Coe Nat Number := ⟨fun n => ofInt n⟩

/-- The difference of two numbers, exact and then rounded. -/
def sub : Number → Number → Number
  | .finite a, .finite b => ofQuotient (a < b) (a - b).natAbs 1
  | .nan, _ => .nan
  | _, .nan => .nan
  | .infinite s, .infinite t => if s = t then .nan else .infinite s
  | .infinite s, .finite _ => .infinite s
  | .finite _, .infinite t => .infinite (!t)

instance : Sub Number := ⟨sub⟩

/-- Whether one number is at most another; `nan` compares with nothing. -/
def le : Number → Number → Bool
  | .finite a, .finite b => a ≤ b
  | .nan, _ => false
  | _, .nan => false
  | .infinite s, .infinite t => s || !t
  | .infinite s, .finite _ => s
  | .finite _, .infinite t => !t

instance : LE Number := ⟨fun x y => le x y = true⟩

instance (x y : Number) : Decidable (x ≤ y) := inferInstanceAs (Decidable (le x y = true))

/-- The integer that a number is, if it is one. -/
def whole? : Number → Option Int
  | .finite steps => if steps % unit = 0 then some (steps / unit) else none
  | _ => none

/-- The integer next to a finite number on the side of zero. -/
def truncated? : Number → Option Int
  | .finite steps => some (steps.tdiv unit)
  | _ => none

end Number

end BuildFeed
