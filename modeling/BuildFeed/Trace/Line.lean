-- Trace lines. A pretty line is for people: long texts are shortened, arrays only counted, and
-- what cannot be written is said to be so. A JSON line is for programs and fails on such
-- values. Either one may start from a clock that the calendar does not reach, and then fails.
import BuildFeed.Trace.Value.Json
import BuildFeed.Text.Units
import BuildFeed.Instant

namespace BuildFeed.Trace

/-! ## How lines are written -/

/-- The two formats of a line. -/
inductive Format where
  | pretty
  | json
  deriving DecidableEq, Inhabited

/-- Where lines go: to standard error or to a sink of the caller's. -/
inductive Sink where
  | stderr
  | custom
  deriving DecidableEq, Inhabited

/-- How lines are written and where they go. -/
structure Style where
  format : Format := .pretty
  timestamps : Bool := false
  sink : Sink := .stderr
  deriving DecidableEq, Inhabited

/-! ## Pretty lines -/

/-- The longest text that is shown in full, in UTF-16 units. -/
def shownUnits : Nat := 60

/-- How many units of a longer text are shown. -/
def keptUnits : Nat := 57

/-- A text in a pretty line: in quotes, and its start only if it is long. -/
def shownText (s : String) : List Char :=
  let cs := s.toList
  if shownUnits < Text.units cs then
    '"' :: (Text.firstUnits keptUnits cs ++ ['.', '.', '.', '"'])
  else '"' :: (cs ++ ['"'])

/-- A value in a pretty line. -/
def shown : Value → List Char
  | .null => "null".toList
  | .absent => Value.absentWord.toList
  | .string s => shownText s
  | .number x => x.chars
  | .bool true => "true".toList
  | .bool false => "false".toList
  | .array items => '[' :: (Number.digitChars items.length ++ " items]".toList)
  | value =>
    match value.json? with
    | .ok (some j) => j.chars
    | .ok none => Value.absentWord.toList
    | .error _ => "[unserializable]".toList

/-- An entry of a pretty line. -/
def shownEntry : String × Value → List Char
  | (key, value) => key.toList ++ '=' :: shown value

/-- The entries of a pretty line between braces; nothing at all for none. -/
def shownData (data : Record) : List Char :=
  match data.entries with
  | [] => []
  | entries => " \x7b ".toList ++ (", ".toList).intercalate (entries.map shownEntry) ++ " \x7d".toList

/-- Channel and point of a pretty line. -/
def label (channel point : String) : List Char :=
  '[' :: (channel.toList ++ '.' :: point.toList ++ [']'])

/-! ## Lines -/

/-- What stands in front of a pretty line: the time, if times are shown. -/
def stamp (style : Style) (clock : Number) : Except Fault (List Char) :=
  if style.timestamps then
    match Instant.ofClock? clock with
    | some t => .ok ('[' :: (t.chars ++ [']', ' ']))
    | none => .error .clockOutOfReach
  else .ok []

/-- The record of a JSON line. -/
def lineJson (style : Style) (clock : Number) (channel point : String) (data : Option Record) :
    Except Fault Json := do
  let dataField ← match data with
    | some data => data.value.json?.map (fun j => Json.optional "data" id j)
    | none => .ok []
  let time := if style.timestamps then [("timestamp", Json.number clock)] else []
  return .object ([("channel", .string channel), ("point", .string point)] ++ dataField ++ time)

/-- A trace line. The time is worked out first, whichever format is asked for. -/
def line (style : Style) (clock : Number) (channel point : String) (data : Option Record) :
    Except Fault String := do
  let time ← stamp style clock
  match style.format with
  | .json => return (← lineJson style clock channel point data).text
  | .pretty =>
    return String.ofList (time ++ label channel point ++ shownData (data.getD {}))

end BuildFeed.Trace
