-- Text measured in UTF-16 units. A character beyond the basic plane takes two, and a cut that
-- falls between the two leaves a replacement character.

namespace BuildFeed.Text

/-- How many UTF-16 units a character takes. -/
def unitsOf (c : Char) : Nat := if c.toNat < 0x10000 then 1 else 2

/-- How many UTF-16 units a text takes. -/
def units : List Char → Nat
  | [] => 0
  | c :: cs => unitsOf c + units cs

/-- What is left of a character that was cut in two. -/
def halved : Char := '\uFFFD'

/-- The first `n` units of a text. -/
def firstUnits : Nat → List Char → List Char
  | 0, _ => []
  | _, [] => []
  | n + 1, c :: cs =>
    if unitsOf c = 1 then c :: firstUnits n cs
    else
      match n with
      | 0 => [halved]
      | m + 1 => c :: firstUnits m cs

end BuildFeed.Text
