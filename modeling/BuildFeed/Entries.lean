-- Entries under construction: keys with values, assigned one after the other. A key assigned
-- again keeps its first place and takes the new value. Read back, the keys that are array
-- indices come first, in ascending order, and the others follow in the order of assignment.
import BuildFeed.Number.Reader

namespace BuildFeed.Entries

variable {α β : Type}

/-! ## Assignment -/

/-- Assign a value to a key. -/
def put (key : String) (value : α) : List (String × α) → List (String × α)
  | [] => [(key, value)]
  | (k, v) :: rest => if k = key then (k, value) :: rest else (k, v) :: put key value rest

/-- The entries that a list of assignments leaves, in the order in which their keys came. -/
def assigned (assignments : List (String × α)) : List (String × α) :=
  assignments.foldl (fun entries (k, v) => put k v entries) []

theorem lookup_cons (key k : String) (value : α) (entries : List (String × α)) :
    List.lookup k ((key, value) :: entries) = if k = key then some value else entries.lookup k := by
  rw [List.lookup_cons]
  by_cases h : k = key
  · subst h
    simp
  · rw [if_neg h, beq_false_of_ne h]

/-- An assigned key has its new value, and every other key what it had. -/
theorem lookup_put (key k : String) (value : α) (entries : List (String × α)) :
    (put key value entries).lookup k = if k = key then some value else entries.lookup k := by
  induction entries with
  | nil => exact lookup_cons key k value []
  | cons e rest ih =>
    obtain ⟨k', v⟩ := e
    unfold put
    by_cases hk : k' = key
    · subst hk
      rw [if_pos rfl, lookup_cons, lookup_cons]
      split <;> rfl
    · rw [if_neg hk, lookup_cons, lookup_cons, ih]
      by_cases h : k = k'
      · rw [if_pos h, if_neg (fun h' => hk (h.symm.trans h')), if_pos h]
      · rw [if_neg h, if_neg h]

/-- An assigned key keeps its place, and a new one gets the last. -/
theorem keys_put (key : String) (value : α) (entries : List (String × α)) :
    (put key value entries).map Prod.fst =
      if key ∈ entries.map Prod.fst then entries.map Prod.fst
      else entries.map Prod.fst ++ [key] := by
  induction entries with
  | nil => simp [put]
  | cons e rest ih =>
    obtain ⟨k, v⟩ := e
    unfold put
    by_cases hk : k = key
    · simp [hk]
    · have hk' : key ≠ k := fun h => hk h.symm
      rw [if_neg hk, List.map_cons, List.map_cons, ih]
      simp only [List.mem_cons, hk', false_or]
      split <;> rfl

/-! ## Order -/

/-- The array index that a key is: a number below 2^32 - 1 in its one plain spelling. -/
def index? (key : String) : Option Nat :=
  match key.toList with
  | '0' :: _ :: _ => none
  | cs =>
    match Number.ofDigits? 10 cs with
    | some n => if n < 4294967295 then some n else none
    | none => none

/-- Whether a key is an array index. -/
def isIndex (key : String) : Bool := (index? key).isSome

/-- Entries with the indices first, ascending, and the other keys as they stood. -/
def ordered (entries : List (String × α)) : List (String × α) :=
  let (indices, names) := entries.partition (fun e => isIndex e.1)
  indices.mergeSort (fun a b => (index? a.1).getD 0 ≤ (index? b.1).getD 0) ++ names

/-- The entries that a list of assignments leaves, in the order in which they are read. -/
def ofAssignments (assignments : List (String × α)) : List (String × α) :=
  ordered (assigned assignments)

end BuildFeed.Entries
