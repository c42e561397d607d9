-- How a number is written: the fewest decimal digits that read back as the same number, and
-- of those the nearest to it. They stand in positional notation from 10^-6 up to 10^21, and
-- with an exponent outside. Whole numbers of up to 53 bits are simply written out.
import BuildFeed.Number.Basic

namespace BuildFeed.Number

/-! ## The fewest digits that read back -/

/-- A positive decimal `digits · 10^exponent`. -/
structure Decimal where
  digits : Nat
  exponent : Int
  deriving DecidableEq

namespace Decimal

/-- A power of ten as a numerator and a denominator. -/
def power (e : Int) : Nat × Nat :=
  if 0 ≤ e then (Nat.pow 10 e.toNat, 1) else (1, Nat.pow 10 (-e).toNat)

/-- The steps of the number that a decimal reads as. -/
def steps (d : Decimal) : Nat :=
  let (num, den) := power d.exponent
  rounded (d.digits * num * unit) den

/-- Trailing zeros go into the exponent; `fuel` bounds how many. -/
def strip (fuel : Nat) (d : Decimal) : Decimal :=
  match fuel with
  | 0 => d
  | fuel + 1 =>
    if d.digits ≠ 0 ∧ d.digits % 10 = 0 then strip fuel ⟨d.digits / 10, d.exponent + 1⟩ else d

end Decimal

/-- The `k` with `10^(k-1) ≤ v < 10^k` for a positive magnitude of `steps` steps. -/
def pointPlace (steps : Nat) : Int :=
  if unit ≤ steps then (Nat.toDigits 10 (steps / unit)).length
  else 1 - ((List.range 325).find? (fun j => unit ≤ steps * Nat.pow 10 j)).getD 324

/-- The best decimal with the given exponent: of the two neighbours of the value on that
grid, the one that reads back; if both do, the nearer; if both are as near, the even one. -/
def readsBack? (steps : Nat) (exponent : Int) : Option Decimal :=
  let (num, den) := Decimal.power exponent
  let n := steps * den
  let d := unit * num
  let low := n / d
  let below := (Decimal.mk low exponent).steps = steps
  let above := (Decimal.mk (low + 1) exponent).steps = steps
  if below ∧ above then some ⟨nearest n d, exponent⟩
  else if below then some ⟨low, exponent⟩
  else if above then some ⟨low + 1, exponent⟩
  else none

/-- The shortest decimal that reads back as the positive magnitude of `steps` steps. Seventeen
digits always do. -/
def shortest (steps : Nat) : Decimal :=
  let place := pointPlace steps
  let found := (List.range 17).findSome? (fun (n : Nat) => readsBack? steps (place - (n + 1)))
  (found.getD ⟨steps, 0⟩).strip 17

/-! ## Notation -/

/-- The decimal digits of a natural number. -/
def digitChars (n : Nat) : List Char := Nat.toDigits 10 n

/-- A decimal in positional notation where its point lies within reach, otherwise with an
exponent. -/
def Decimal.chars (d : Decimal) : List Char :=
  let ds := digitChars d.digits
  let place : Int := ds.length + d.exponent
  if 0 ≤ d.exponent ∧ place ≤ 21 then ds ++ List.replicate d.exponent.toNat '0'
  else if 0 < place ∧ place ≤ 21 then ds.take place.toNat ++ '.' :: ds.drop place.toNat
  else if -6 < place ∧ place ≤ 0 then '0' :: '.' :: (List.replicate (-place).toNat '0' ++ ds)
  else
    let power := place - 1
    let mantissa := match ds with
      | [] => []
      | [c] => [c]
      | c :: rest => c :: '.' :: rest
    mantissa ++ 'e' :: (if power < 0 then '-' else '+') :: digitChars power.natAbs

/-- The text of an integer. -/
def intChars (n : Int) : List Char :=
  if n < 0 then '-' :: digitChars n.natAbs else digitChars n.natAbs

/-- The characters of a number. -/
def chars : Number → List Char
  | .nan => "NaN".toList
  | .infinite true => "-Infinity".toList
  | .infinite false => "Infinity".toList
  | .finite steps =>
    match whole? (.finite steps) with
    | some n =>
      if n.natAbs ≤ Nat.pow 2 significantBits then intChars n
      else signed steps
    | none => signed steps
where
  /-- A sign where it is needed, then the shortest decimal. -/
  signed (steps : Int) : List Char :=
    let ds := (shortest steps.natAbs).chars
    if steps < 0 then '-' :: ds else ds

/-- The text of a number. -/
def text (x : Number) : String := String.ofList x.chars

end BuildFeed.Number
