-- Percent-encoding. A character that is kept stands for itself; any other is written as the
-- bytes of its UTF-8 form, each as a percent sign and two upper-case hexadecimal digits.

namespace BuildFeed.Text

/-- An upper-case hexadecimal digit. -/
def upperHexDigit (n : Nat) : Char :=
  if n < 10 then Char.ofNat (0x30 + n) else Char.ofNat (0x37 + n)

/-- A byte in percent-encoded form. -/
def percentByte (b : UInt8) : List Char :=
  ['%', upperHexDigit (b.toNat / 16), upperHexDigit (b.toNat % 16)]

/-- The characters that need no encoding anywhere: ASCII letters and digits and four marks. -/
def isUnreserved (c : Char) : Bool :=
  c.isAlphanum || c == '-' || c == '.' || c == '_' || c == '~'

/-- A character as it is if it is kept, else its UTF-8 bytes in percent-encoded form. -/
def percentChar (kept : Char → Bool) (c : Char) : List Char :=
  if kept c then [c] else (String.utf8EncodeChar c).flatMap percentByte

/-- A text with every character that is not kept percent-encoded. -/
def percentEncode (kept : Char → Bool) (cs : List Char) : List Char :=
  cs.flatMap (percentChar kept)

/-! ## Reading back -/

/-- The value of an upper-case hexadecimal digit. -/
def upperHexValue? (c : Char) : Option Nat :=
  if c.isDigit then some (c.toNat - 0x30)
  else if 'A' ≤ c ∧ c ≤ 'F' then some (c.toNat - 0x37)
  else none

/-- The bytes that a percent-encoded text stands for. Only ASCII can stand in it. -/
def percentBytes? : List Char → Option (List UInt8)
  | [] => some []
  | '%' :: high :: low :: rest =>
    match upperHexValue? high, upperHexValue? low with
    | some h, some l => (percentBytes? rest).map (UInt8.ofNat (16 * h + l) :: ·)
    | _, _ => none
  | c :: rest =>
    if c = '%' ∨ 0x80 ≤ c.toNat then none
    else (percentBytes? rest).map (UInt8.ofNat c.toNat :: ·)

/-- The text of which a percent-encoded text has the UTF-8 form. -/
def percentDecode? (cs : List Char) : Option (List Char) :=
  match percentBytes? cs with
  | some bytes => bytes.toByteArray.utf8Decode?.map Array.toList
  | none => none

end BuildFeed.Text
