-- JSON values and their one written form: no spaces, fields in the order they stand in, and
-- only quotes, backslashes and control characters escaped.
import BuildFeed.Number.Text

namespace BuildFeed

/-- A JSON value. A record holds its fields in order. -/
inductive Json where
  | null
  | bool (b : Bool)
  | number (x : Number)
  | string (s : String)
  | array (items : List Json)
  | object (fields : List (String × Json))
  deriving Inhabited

namespace Json

/-! ## Strings -/

/-- A lower-case hexadecimal digit. -/
def hexDigit (n : Nat) : Char :=
  if n < 10 then Char.ofNat (0x30 + n) else Char.ofNat (0x57 + n)

/-- A character between quotes. -/
def escaped (c : Char) : List Char :=
  if c = '"' then ['\\', '"']
  else if c = '\\' then ['\\', '\\']
  else if c = '\x08' then ['\\', 'b']
  else if c = '\t' then ['\\', 't']
  else if c = '\n' then ['\\', 'n']
  else if c = '\x0c' then ['\\', 'f']
  else if c = '\r' then ['\\', 'r']
  else if c.toNat < 0x20 then ['\\', 'u', '0', '0', hexDigit (c.toNat / 16), hexDigit (c.toNat % 16)]
  else [c]

/-- A text in quotes. -/
def quoted (s : String) : List Char := '"' :: (s.toList.flatMap escaped ++ ['"'])

/-! ## Values -/

/-- A number as JSON has it: what is not finite has no form of its own and is null. -/
def numberChars : Number → List Char
  | .finite steps => (Number.finite steps).chars
  | _ => "null".toList

mutual

/-- The written form of a value. -/
def chars : Json → List Char
  | .null => "null".toList
  | .bool true => "true".toList
  | .bool false => "false".toList
  | .number x => numberChars x
  | .string s => quoted s
  | .array items => '[' :: ([','].intercalate (itemChars items) ++ [']'])
  | .object fields => '{' :: ([','].intercalate (fieldChars fields) ++ ['}'])

/-- The written forms of the items of an array. -/
def itemChars : List Json → List (List Char)
  | [] => []
  | x :: xs => chars x :: itemChars xs

/-- The written forms of the fields of a record. -/
def fieldChars : List (String × Json) → List (List Char)
  | [] => []
  | (key, x) :: xs => (quoted key ++ ':' :: chars x) :: fieldChars xs

end

/-- The text of a value. -/
def text (j : Json) : String := String.ofList j.chars

/-! ## Building records -/

/-- A field that is there only if it has a value. -/
def optional {α : Type} (key : String) (encode : α → Json) : Option α → List (String × Json)
  | some x => [(key, encode x)]
  | none => []

/-- A natural number. -/
def nat (n : Nat) : Json := .number n

end Json

end BuildFeed
