-- Lower case by the rules of Unicode, free of any language: each character goes to its
-- partner, the dotted capital I to two characters, and a capital sigma to the final form
-- where it ends a word.
import BuildFeed.Text.LowerTable
import BuildFeed.Text.CasedTable

namespace BuildFeed.Text

/-- The lower case of a character between the text before it, nearest first, and the text
after it. -/
def lowerChar (before : List Char) (c : Char) (after : List Char) : List Char :=
  if c = 'Σ' then [if meetsCased before && !meetsCased after then 'ς' else 'σ']
  else if c = 'İ' then ['i', '\u0307']
  else [Char.ofNat (lowerCode c.toNat)]

/-- The lower case of a text that follows `before`, the nearest character first. -/
def lowerAfter : List Char → List Char → List Char
  | _, [] => []
  | before, c :: cs => lowerChar before c cs ++ lowerAfter (c :: before) cs

/-- A text in lower case. -/
def lower (cs : List Char) : List Char := lowerAfter [] cs

end BuildFeed.Text
