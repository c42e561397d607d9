-- Reading numbers from text: decimals with a point and an exponent, whole numbers in base sixteen,
-- eight and two, and infinity. Blanks around a number do not count, and nothing but blanks is zero.
-- A decimal is read exactly and then rounded once.
import BuildFeed.Number.Text
import BuildFeed.Text.Blank

namespace BuildFeed.Number

/-! ## Digits -/

/-- The value of a digit, up to fifteen. -/
def digitValue? (c : Char) : Option Nat :=
  if '0' ≤ c ∧ c ≤ '9' then some (c.toNat - '0'.toNat)
  else if 'a' ≤ c ∧ c ≤ 'f' then some (c.toNat - 'a'.toNat + 10)
  else if 'A' ≤ c ∧ c ≤ 'F' then some (c.toNat - 'A'.toNat + 10)
  else none

/-- What digits of a base spell after `n`; nothing if one of them is no digit of the base. -/
def digitsAfter? (base n : Nat) : List Char → Option Nat
  | [] => some n
  | c :: cs =>
    match digitValue? c with
    | some d => if d < base then digitsAfter? base (base * n + d) cs else none
    | none => none

/-- The natural number that digits of a base spell; there has to be one at least. -/
def ofDigits? (base : Nat) : List Char → Option Nat
  | [] => none
  | cs => digitsAfter? base 0 cs

/-! ## Decimals -/

/-- A sign in front, and what follows it. Without one it is plus. -/
def signed : List Char → Bool × List Char
  | '-' :: cs => (true, cs)
  | '+' :: cs => (false, cs)
  | cs => (false, cs)

/-- Whether a character announces an exponent. -/
def isExponentMark (c : Char) : Bool := c = 'e' || c = 'E'

/-- The exponent that the end of a decimal gives, its mark included; none is zero. -/
def exponent? : List Char → Option Int
  | [] => some 0
  | _ :: cs =>
    let (negative, digits) := signed cs
    (ofDigits? 10 digits).map (fun n => if negative then -(n : Int) else n)

/-- The decimal that a text spells without a sign: digits with at most one point among them, and
an exponent behind them if there is a mark. -/
def decimal? (cs : List Char) : Option Decimal :=
  let (mantissa, power) := cs.span (fun c => !isExponentMark c)
  let (whole, fraction) := mantissa.span (fun c => c ≠ '.')
  let places := fraction.drop 1
  match ofDigits? 10 (whole ++ places), exponent? power with
  | some digits, some exponent => some ⟨digits, exponent - places.length⟩
  | _, _ => none

/-- The number nearest to a decimal. From 10^400 on it is infinite and below 10^-400 zero, and
neither has to be worked out. -/
def Decimal.number (negative : Bool) (d : Decimal) : Number :=
  let place : Int := (digitChars d.digits).length + d.exponent
  if d.digits = 0 ∨ place < -400 then .finite 0
  else if 400 < place then .infinite negative
  else
    let (num, den) := power d.exponent
    ofQuotient negative (d.digits * num * unit) den

/-! ## Numbers -/

/-- The base that the letter behind a leading zero stands for. -/
def base? : Char → Option Nat
  | 'x' => some 16
  | 'X' => some 16
  | 'o' => some 8
  | 'O' => some 8
  | 'b' => some 2
  | 'B' => some 2
  | _ => none

/-- The number that a text spells with a sign or without, in base ten. -/
def ofSigned (cs : List Char) : Number :=
  let (negative, rest) := signed cs
  if rest = "Infinity".toList then .infinite negative
  else
    match decimal? rest with
    | some d => d.number negative
    | none => .nan

/-- The number that a text without blanks around it spells. -/
def ofChars (cs : List Char) : Number :=
  match cs with
  | [] => .finite 0
  | '0' :: mark :: digits =>
    match base? mark with
    | some base =>
      match ofDigits? base digits with
      | some n => .ofInt n
      | none => .nan
    | none => ofSigned cs
  | _ => ofSigned cs

/-- The number that a text spells, and `nan` if it spells none. -/
def ofText (s : String) : Number := ofChars (Text.trim s.toList)

end BuildFeed.Number
