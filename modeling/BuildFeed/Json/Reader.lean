-- Reading JSON texts by the grammar of the format: any blanks between the signs, every kind of
-- escape in strings, and numbers with a fraction and an exponent. A record keeps its fields as they
-- come. A text that holds more than one value, or less, is refused.
import BuildFeed.Json
import BuildFeed.Number.Reader

namespace BuildFeed.Json

/-! ## Blanks -/

/-- The blanks of the format. -/
def isSpace (c : Char) : Bool := c = ' ' || c = '\t' || c = '\n' || c = '\r'

/-- A text without the blanks at its start. -/
def unspaced (cs : List Char) : List Char := cs.dropWhile isSpace

/-! ## Strings -/

/-- The character that a UTF-16 unit is, if it is one. -/
def ofUnit? (unit : Nat) : Option Char :=
  if 0xD800 ≤ unit ∧ unit < 0xE000 then none else some (Char.ofNat unit)

/-- The character that two UTF-16 units are, if they are one. -/
def ofUnits? (high low : Nat) : Option Char :=
  if (0xD800 ≤ high ∧ high < 0xDC00) ∧ (0xDC00 ≤ low ∧ low < 0xE000) then
    some (Char.ofNat (0x10000 + 0x400 * (high - 0xD800) + (low - 0xDC00)))
  else none

/-- The character that a letter stands for behind a backslash. -/
def ofEscape? : Char → Option Char
  | '"' => some '"'
  | '\\' => some '\\'
  | '/' => some '/'
  | 'b' => some '\x08'
  | 'f' => some '\x0c'
  | 'n' => some '\n'
  | 'r' => some '\r'
  | 't' => some '\t'
  | _ => none

/-- A UTF-16 unit in four hexadecimal digits at the start of a text, and what follows it. -/
def unit? : List Char → Option (Nat × List Char)
  | a :: b :: c :: d :: rest => (Number.ofDigits? 16 [a, b, c, d]).map (·, rest)
  | _ => none

/-- A UTF-16 unit that a text starts to escape once more, and what follows it. -/
def nextUnit? : List Char → Option (Nat × List Char)
  | '\\' :: 'u' :: cs => unit? cs
  | _ => none

/-- The character behind a backslash, and what follows it. A character beyond the basic plane takes
two escapes. -/
def escape? : List Char → Option (Char × List Char)
  | 'u' :: cs =>
    match unit? cs with
    | some (unit, rest) =>
      let double := (nextUnit? rest).bind (fun (low, rest) => (ofUnits? unit low).map (·, rest))
      double.or ((ofUnit? unit).map (·, rest))
    | none => none
  | c :: rest => (ofEscape? c).map (·, rest)
  | [] => none

/-- A string from behind its first quote on, and what follows it; `fuel` bounds how many characters
it has. -/
def stringFrom? : Nat → List Char → Option (List Char × List Char)
  | 0, _ => none
  | _, [] => none
  | fuel + 1, c :: cs =>
    if c = '"' then some ([], cs)
    else if c = '\\' then
      match escape? cs with
      | some (c, rest) => (stringFrom? fuel rest).map (fun (s, rest) => (c :: s, rest))
      | none => none
    else if c.toNat < 0x20 then none
    else (stringFrom? fuel cs).map (fun (s, rest) => (c :: s, rest))

/-! ## Numbers -/

/-- The characters of numbers. -/
def isNumberLetter (c : Char) : Bool := c.isDigit || "+-.eE".toList.contains c

/-- Digits, one at least. -/
def areDigits (cs : List Char) : Bool := !cs.isEmpty && cs.all Char.isDigit

/-- Whether this is the whole part of a number: no zero stands in front of other digits. -/
def isWhole (cs : List Char) : Bool := areDigits cs && (cs == ['0'] || cs.head? != some '0')

/-- Whether this is the fraction of a number, with its point, or none at all. -/
def isFraction : List Char → Bool
  | [] => true
  | c :: cs => c == '.' && areDigits cs

/-- Whether this is the exponent of a number, with its mark, or none at all. -/
def isExponent : List Char → Bool
  | [] => true
  | c :: cs => Number.isExponentMark c && areDigits (Number.signed cs).2

/-- A text without a minus sign at its start. -/
def unsigned : List Char → List Char
  | '-' :: cs => cs
  | cs => cs

/-- Whether a text is a number of the format. -/
def isNumeral (cs : List Char) : Bool :=
  let (mantissa, exponent) := (unsigned cs).span (fun c => !Number.isExponentMark c)
  let (whole, fraction) := mantissa.span (fun c => c ≠ '.')
  isWhole whole && isFraction fraction && isExponent exponent

/-- A number at the start of a text, and what follows it. -/
def number? (cs : List Char) : Option (Json × List Char) :=
  let (numeral, rest) := cs.span isNumberLetter
  if isNumeral numeral then some (.number (Number.ofSigned numeral), rest) else none

/-! ## Values -/

/-- The values that are words. -/
def words : List (List Char × Json) :=
  [("null".toList, .null), ("true".toList, .bool true), ("false".toList, .bool false)]

/-- A word at the start of a text, and what follows it. -/
def word? (cs : List Char) : Option (Json × List Char) :=
  words.findSome? (fun (word, j) => (word.isPrefixOf? cs).map (j, ·))

mutual

/-- A value at the start of a text, and what follows it; `fuel` bounds how many characters it
takes. -/
def value? : Nat → List Char → Option (Json × List Char)
  | 0, _ => none
  | fuel + 1, cs =>
    match unspaced cs with
    | '"' :: rest => (stringFrom? fuel rest).map (fun (s, rest) => (.string (String.ofList s), rest))
    | '[' :: rest =>
      match unspaced rest with
      | ']' :: rest => some (.array [], rest)
      | _ => (items? fuel rest).map (fun (items, rest) => (.array items, rest))
    | '{' :: rest =>
      match unspaced rest with
      | '}' :: rest => some (.object [], rest)
      | _ => (fields? fuel rest).map (fun (fields, rest) => (.object fields, rest))
    | cs => (word? cs).or (number? cs)

/-- The items of an array from the next one on, and what follows the array. -/
def items? : Nat → List Char → Option (List Json × List Char)
  | 0, _ => none
  | fuel + 1, cs =>
    match value? fuel cs with
    | some (x, rest) =>
      match unspaced rest with
      | ']' :: rest => some ([x], rest)
      | ',' :: rest => (items? fuel rest).map (fun (items, rest) => (x :: items, rest))
      | _ => none
    | none => none

/-- The fields of a record from the next one on, and what follows the record. -/
def fields? : Nat → List Char → Option (List (String × Json) × List Char)
  | 0, _ => none
  | fuel + 1, cs =>
    match unspaced cs with
    | '"' :: rest =>
      match stringFrom? fuel rest with
      | some (key, rest) =>
        match unspaced rest with
        | ':' :: rest =>
          match value? fuel rest with
          | some (x, rest) =>
            match unspaced rest with
            | '}' :: rest => some ([(String.ofList key, x)], rest)
            | ',' :: rest =>
              (fields? fuel rest).map (fun (fields, rest) => ((String.ofList key, x) :: fields, rest))
            | _ => none
          | none => none
        | _ => none
      | none => none
    | _ => none

end

/-- The value that a text spells, if it spells one. -/
def read? (text : String) : Option Json :=
  match value? (text.toList.length + 1) text.toList with
  | some (j, rest) => if (unspaced rest).isEmpty then some j else none
  | none => none

end BuildFeed.Json
