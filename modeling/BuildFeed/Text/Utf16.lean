-- UTF-16. A character of the basic plane is one unit, any other a pair of surrogates. Units that were cut
-- out of a text may have one half of a pair at an end, and then spell a replacement character there.
import BuildFeed.Json.Reader
import BuildFeed.Text.Units

namespace BuildFeed.Text

open Json (ofUnit? ofUnits?)

/-- The UTF-16 units of a character. -/
def utf16Char (c : Char) : List Nat :=
  if c.toNat < 0x10000 then [c.toNat]
  else [0xD800 + (c.toNat - 0x10000) / 0x400, 0xDC00 + (c.toNat - 0x10000) % 0x400]

/-- The UTF-16 units of a text. -/
def utf16 (cs : List Char) : List Nat := cs.flatMap utf16Char

/-- The text that UTF-16 units spell. What is left of a pair without its other half is a replacement
character. -/
def ofUtf16 : List Nat → List Char
  | [] => []
  | [unit] => [(ofUnit? unit).getD halved]
  | high :: low :: rest =>
    match ofUnits? high low with
    | some c => c :: ofUtf16 rest
    | none => (ofUnit? high).getD halved :: ofUtf16 (low :: rest)

/-- Whether a unit is the second one of a pair. -/
def isTrail (unit : Nat) : Bool := 0xDC00 ≤ unit && unit < 0xE000

/-- Whether the first `n` units of a text end between the two of a pair. -/
def splitsPair (n : Nat) (cs : List Char) : Bool := (utf16 cs)[n]?.any isTrail

end BuildFeed.Text
