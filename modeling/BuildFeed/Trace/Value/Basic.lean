-- The values that a trace line can show, and how their records come about. A record is built by
-- assignments. One key is special: it names the parent of the record, a value in which the record
-- looks up what it lacks itself. What stands in the parent is no entry of the record. A few keys
-- cannot be given to a record whose line of parents ends in a function.
import BuildFeed.Entries
import BuildFeed.Fault

namespace BuildFeed.Trace

/-- A value as it comes to a trace. -/
inductive Value where
  /-- No value at all. -/
  | absent
  | null
  | bool (b : Bool)
  | number (x : Number)
  | string (s : String)
  /-- An integer of any size, which has no JSON form. -/
  | integer (n : Int)
  | function
  | array (items : List Value)
  | record (entries : List (String × Value))
  /-- A record with a parent. The parent null stands for nothing at all. -/
  | heir (parent : Value) (entries : List (String × Value))
  /-- A record that contains itself. -/
  | cyclic
  deriving Inhabited

/-- Named values, in the order of their assignment. -/
abbrev Data := List (String × Value)

namespace Value

/-- The word for what is not there. -/
def absentWord : String := "undefined"

/-! ## Looking up -/

/-- What stands under a key, in a record or in the nearest of its parents that has the key. -/
def get? (key : String) : Value → Option Value
  | .record entries => entries.lookup key
  | .heir parent entries =>
    match entries.lookup key with
    | some value => some value
    | none => get? key parent
  | _ => none

/-- Where the line of parents ends; a value without a parent is its own end. -/
def origin : Value → Value
  | .heir parent _ => origin parent
  | value => value

/-- Whether a value is a function. A function gives nothing when it is called. -/
def isFunction : Value → Bool
  | .function => true
  | _ => false

/-- Whether what stands under a key is a function, if something does. -/
def answers? (key : String) (v : Value) : Option Bool := (v.get? key).map isFunction

/-! ## Building records -/

/-- The key that names the parent. -/
def parentKey : String := "__proto__"

/-- Whether a value can be a parent. -/
def canBeParent : Value → Bool
  | .absent => false
  | .bool _ => false
  | .number _ => false
  | .string _ => false
  | .integer _ => false
  | _ => true

/-- Whether the parent key names the parent when it is assigned in a value or in an heir of it.
It does not where the line of parents ends in nothing, nor where it has become an entry. -/
def namesParent : Value → Bool
  | .null => false
  | .record entries => (entries.lookup parentKey).isNone
  | .heir parent entries => (entries.lookup parentKey).isNone && namesParent parent
  | _ => true

/-- The keys that a function keeps to itself. -/
def functionKeys : List String := ["length", "name", "caller", "arguments"]

/-- Whether a record cannot be given a key: a function at the end of its line of parents keeps it,
and no entry on the way has it. -/
def keeps (key : String) (v : Value) : Bool :=
  functionKeys.contains key && (v.get? key).isNone && v.origin.isFunction

end Value

/-- A record: its parent, if it was given one, and its own entries. -/
structure Record where
  parent : Option Value := none
  entries : List (String × Value) := []
  deriving Inhabited

namespace Record

/-- The record as a value. -/
def value (r : Record) : Value :=
  match r.parent with
  | none => .record r.entries
  | some parent => .heir parent r.entries

/-- Assign a value to a key. A parent that cannot be one is passed over. -/
def assign (r : Record) (key : String) (v : Value) : Except Fault Record :=
  if key = Value.parentKey ∧ r.value.namesParent = true then
    .ok (if v.canBeParent then { r with parent := some v } else r)
  else if r.value.keeps key then .error .keptKey
  else .ok { r with entries := Entries.put key v r.entries }

/-- Make assignments one after the other. -/
def assignAll (r : Record) : Data → Except Fault Record
  | [] => .ok r
  | (key, v) :: rest =>
    match r.assign key v with
    | .ok r => r.assignAll rest
    | .error e => .error e

/-- The record that a list of assignments makes, its entries in the order in which they are
read. -/
def ofAssignments (assignments : Data) : Except Fault Record :=
  (({} : Record).assignAll assignments).map
    (fun r => { r with entries := Entries.ordered r.entries })

/-- In a record without a parent, an ordinary key gets its value. -/
theorem assign_of_ne {key : String} (h : key ≠ Value.parentKey) (v : Value)
    (entries : List (String × Value)) :
    assign { entries } key v = .ok { entries := Entries.put key v entries } := by
  simp [assign, h, value, Value.keeps, Value.origin, Value.isFunction]

/-- In a record without a parent, assignments to ordinary keys only put entries. -/
theorem assignAll_of_ne {assignments : Data} (h : ∀ e ∈ assignments, e.1 ≠ Value.parentKey)
    (entries : List (String × Value)) :
    assignAll { entries } assignments =
      .ok { entries := assignments.foldl (fun es (key, v) => Entries.put key v es) entries } := by
  induction assignments generalizing entries with
  | nil => rfl
  | cons e rest ih =>
    obtain ⟨key, v⟩ := e
    have first := assign_of_ne (h (key, v) List.mem_cons_self) v entries
    simp only [assignAll, first, List.foldl_cons]
    exact ih (fun e he => h e (List.mem_cons_of_mem _ he)) _

/-- Without the parent key, assignments always make a record. It has no parent, and its entries
are those that the assignments leave. -/
theorem ofAssignments_of_ne {assignments : Data}
    (h : ∀ e ∈ assignments, e.1 ≠ Value.parentKey) :
    ofAssignments assignments = .ok { entries := Entries.ofAssignments assignments } := by
  unfold ofAssignments
  rw [assignAll_of_ne h]
  rfl

end Record

end BuildFeed.Trace
