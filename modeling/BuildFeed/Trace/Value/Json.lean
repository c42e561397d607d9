-- Values as JSON. Some have no JSON form at all, others are left out of records, so turning one
-- into JSON can fail, give nothing, or give a value. Of a record only its own entries count.
import BuildFeed.Trace.Value.Basic
import BuildFeed.Json

namespace BuildFeed.Trace.Value

/-- Whether a record answers for its own JSON form, with a function under `toJSON`, its own or its
parent's. Functions give nothing, so such a record has no place in JSON. -/
def answersItself (v : Value) : Bool := v.answers? "toJSON" == some true

/-- The entries that have a JSON value, in order; one failure fails them all. -/
def present : List (String × Except Fault (Option Json)) → Except Fault (List (String × Json))
  | [] => .ok []
  | (key, value) :: rest =>
    match value, present rest with
    | .error e, _ => .error e
    | .ok _, .error e => .error e
    | .ok none, .ok fields => .ok fields
    | .ok (some j), .ok fields => .ok ((key, j) :: fields)

mutual

/-- A value as JSON. What is absent has no place there, and neither has a function or a record
that answers for itself; an integer of any size or a record within itself cannot be written. -/
def json? : Value → Except Fault (Option Json)
  | .absent => .ok none
  | .function => .ok none
  | .null => .ok (some .null)
  | .bool b => .ok (some (.bool b))
  | .number x => .ok (some (.number x))
  | .string s => .ok (some (.string s))
  | .integer _ => .error .unwritable
  | .cyclic => .error .unwritable
  | .array items => (jsonItems items).map (fun js => some (.array js))
  | .record entries =>
    if answersItself (.record entries) then .ok none
    else (present (jsonEntries entries)).map (fun fields => some (.object fields))
  | .heir parent entries =>
    if answersItself (.heir parent entries) then .ok none
    else (present (jsonEntries entries)).map (fun fields => some (.object fields))

/-- The items of an array as JSON; what has no place is null. -/
def jsonItems : List Value → Except Fault (List Json)
  | [] => .ok []
  | x :: xs =>
    match json? x, jsonItems xs with
    | .error e, _ => .error e
    | .ok _, .error e => .error e
    | .ok j, .ok js => .ok (j.getD .null :: js)

/-- Each entry with what its value is as JSON. -/
def jsonEntries : List (String × Value) → List (String × Except Fault (Option Json))
  | [] => []
  | (key, x) :: xs => (key, json? x) :: jsonEntries xs

end

end BuildFeed.Trace.Value
