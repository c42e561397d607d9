-- Values in words. An array gives the words of its items, a record says only that it is one,
-- unless an entry of its own or of its parents answers for it, or the line of its parents ends in
-- something else than a record: behind an array it is read like one, and behind a function or
-- nothing it has no words.
import BuildFeed.Trace.Value.Basic

namespace BuildFeed.Trace.Value

/-- What a record says of itself. -/
def recordWord : String := "[object Object]"

/-! ## How a record comes to its words -/

/-- The ways of a record with words. -/
inductive Manner where
  | tells (text : String)
  /-- There are no words for it. -/
  | mute
  /-- It is read like an array, position by position. -/
  | joins
  deriving DecidableEq, Inhabited

/-- What is left to a record that has no text of its own: a function under `valueOf`. -/
def fallback (v : Value) : Manner :=
  if v.answers? "valueOf" = some true then .tells absentWord else .mute

/-- The way of a record. A function under `toString` gives nothing to say, and with anything else
there only the fallback is left. Without it the end of the line of parents decides; an array there
is asked for `join` first. -/
def manner (v : Value) : Manner :=
  match v.answers? "toString" with
  | some true => .tells absentWord
  | some false => fallback v
  | none =>
    match v.origin with
    | .null => fallback v
    | .function => .mute
    | .array _ =>
      match v.answers? "join" with
      | some true => .tells absentWord
      | some false => .tells recordWord
      | none => .joins
    | _ => .tells recordWord

/-! ## Positions -/

/-- The most positions that can be gone through. -/
def maxPositions : Nat := 4294967295

/-- The longest text there can be, in UTF-16 units. -/
def maxUnits : Nat := 536870888

/-- The key of a position. -/
def positionKey (i : Nat) : String := String.ofList (Number.digitChars i)

/-- A number as a count: its whole part, and nothing below zero. -/
def countOf : Number → Nat
  | .nan => 0
  | .infinite true => 0
  | .infinite false => maxPositions + 1
  | .finite steps => (steps / Number.unit).toNat

/-- The count that a value gives, with its words at hand. What is no number counts as the number
that its words spell. -/
def count (words : Except Fault String) : Value → Except Fault Nat
  | .number x => .ok (countOf x)
  | .bool b => .ok (if b then 1 else 0)
  | .integer _ => .error .unwritable
  | v =>
    if v.answers? "valueOf" = some true then .ok 0
    else words.map (fun text => countOf (.ofText text))

/-- The words under a key, among those nearest first; none where the key is missing. -/
def heard (spoken : List (String × Except Fault String)) (key : String) : Except Fault String :=
  (spoken.lookup key).getD (.ok "")

/-- How many positions a record has that is read like an array: as many as it or a parent says
under `length`, or else as many as the array has. -/
def positions (v : Value) (spoken : List (String × Except Fault String)) : Except Fault Nat :=
  match v.get? "length", v.origin with
  | some length, _ => count (heard spoken "length") length
  | none, .array items => .ok items.length
  | none, _ => .ok 0

/-- All of the words, or the first failure. -/
def allOf : List (Except Fault String) → Except Fault (List String)
  | [] => .ok []
  | .error e :: _ => .error e
  | .ok w :: rest => (allOf rest).map (w :: ·)

/-- Words with commas between. -/
def joined (spoken : List (Except Fault String)) : Except Fault String :=
  (allOf spoken).map (",".intercalate ·)

/-- The words of a record at its first positions. -/
def joinedUpTo (n : Nat) (spoken : List (String × Except Fault String)) : Except Fault String :=
  if maxPositions < n then .error .unwritable
  else if maxUnits < n - 1 then .error .tooLong
  else joined ((List.range n).map (fun i => heard spoken (positionKey i)))

/-- The words of a record, with the words of all that it and its parents hold. -/
def recordWords (v : Value) (spoken : List (String × Except Fault String)) :
    Except Fault String :=
  match manner v with
  | .tells text => .ok text
  | .mute => .error .unwritable
  | .joins => positions v spoken >>= fun n => joinedUpTo n spoken

/-! ## Words -/

/-- Whether an item of an array goes without a word. -/
def isWordless : Value → Bool
  | .absent => true
  | .null => true
  | _ => false

mutual

/-- A value in words. -/
def words : Value → Except Fault String
  | .absent => .ok absentWord
  | .null => .ok "null"
  | .bool true => .ok "true"
  | .bool false => .ok "false"
  | .number x => .ok x.text
  | .string s => .ok s
  | .integer n => .ok (String.ofList (Number.intChars n))
  | .function => .ok "() => \x7b\x7d"
  | .array items => joined (itemWords items)
  | .record entries => recordWords (.record entries) (entryWords entries)
  | .heir parent entries =>
    recordWords (.heir parent entries) (entryWords entries ++ spoken parent)
  | .cyclic => .ok recordWord

/-- The items of an array in words; null has none, and neither has an absent one. -/
def itemWords : List Value → List (Except Fault String)
  | [] => []
  | x :: xs => (if isWordless x then .ok "" else words x) :: itemWords xs

/-- The entries of a record in words, as items. -/
def entryWords : List (String × Value) → List (String × Except Fault String)
  | [] => []
  | (key, x) :: xs => (key, if isWordless x then .ok "" else words x) :: entryWords xs

/-- The words of all that a value and its parents hold, nearest first. -/
def spoken : Value → List (String × Except Fault String)
  | .array items => (itemWords items).zipIdx.map (fun (w, i) => (positionKey i, w))
  | .record entries => entryWords entries
  | .heir parent entries => entryWords entries ++ spoken parent
  | _ => []

end

end BuildFeed.Trace.Value
