-- What assignments leave. Every key that was assigned stands once, with the value that it was given last.
-- Where entries are read, the array indices come first and ascend, and the other keys follow in the
-- order in which they were assigned first.
import Mathlib.Data.List.Nodup
import BuildFeed.Entries
import BuildFeed.Proofs.Number.Digits

namespace BuildFeed

/-! ## Names in the order in which they come -/

/-- Of two names the first keeps its place: a list without repetitions gets a name at its end only
if it did not have it. -/
theorem eraseDups_append_singleton (names : List String) (name : String) :
    (names ++ [name]).eraseDups =
      if name ∈ names then names.eraseDups else names.eraseDups ++ [name] := by
  rw [List.eraseDups_append]
  by_cases h : name ∈ names
  · simp [h, List.removeAll]
  · simp [h, List.removeAll, List.eraseDups_cons]

theorem nodup_eraseDups (names : List String) : names.eraseDups.Nodup := by
  induction names using List.reverseRecOn with
  | nil => exact List.nodup_nil
  | append_singleton names name ih =>
    rw [eraseDups_append_singleton]
    split
    · exact ih
    · rename_i hnew
      rw [List.nodup_append]
      refine ⟨ih, by simp, fun a ha b hb => ?_⟩
      rw [List.mem_singleton.mp hb]
      rintro rfl
      exact hnew (List.mem_eraseDups.mp ha)

namespace Entries

variable {α : Type}

/-! ## Array indices -/

/-- A key is an array index if it is the text of a number below 2^32 - 1. -/
def IsIndex (key : String) : Prop := ∃ n < 2 ^ 32 - 1, key = toString n

theorem toString_eq_iff (key : String) (n : Nat) :
    key = toString n ↔ key.toList = Number.digitChars n := by
  have htext : toString n = String.ofList (Number.digitChars n) := rfl
  rw [htext, ← String.toList_inj, String.toList_ofList]

/-- The text of a number has no zero in front of other digits. -/
theorem digitChars_ne (n : Nat) (c : Char) (cs : List Char) : Number.digitChars n ≠ '0' :: c :: cs := by
  intro heq
  by_cases hn : n = 0
  · subst hn
    cases heq
  · have hhead := Number.head?_digitChars_ne hn
    rw [heq] at hhead
    exact hhead rfl

theorem plain_of_ne {cs : List Char} (hne : cs ≠ [])
    (h : ∀ c ds, cs = '0' :: c :: ds → False) : cs = ['0'] ∨ cs.head? ≠ some '0' := by
  rcases cs with _ | ⟨c, _ | ⟨d, ds⟩⟩
  · exact absurd rfl hne
  · by_cases hc : c = '0'
    · exact .inl (by rw [hc])
    · exact .inr (by simpa using hc)
  · right
    intro hhead
    cases hhead
    exact h d ds rfl

theorem index?_eq_some_iff (key : String) (n : Nat) :
    index? key = some n ↔ n < 2 ^ 32 - 1 ∧ key = toString n := by
  rw [toString_eq_iff]
  unfold index?
  split
  · rename_i heq
    rw [heq]
    exact iff_of_false nofun (fun h => digitChars_ne n _ _ h.2.symm)
  · rename_i hplain
    constructor
    · intro h
      split at h
      · rename_i m hm
        split at h
        · rename_i hlt
          cases h
          obtain ⟨hne, hdigits⟩ := Number.isDigit_of_ofDigits? hm
          have hzero := plain_of_ne hne hplain
          rw [Number.ofDigits?_of_isDigit hne hdigits, Option.some.injEq] at hm
          rw [← hm, Number.digitChars_ofDigitChars hne hdigits hzero]
          exact ⟨hm ▸ hlt, rfl⟩
        · cases h
      · cases h
    · rintro ⟨hlt, heq⟩
      rw [heq, Number.ofDigits?_digitChars]
      exact if_pos hlt

theorem isIndex_iff (key : String) : isIndex key = true ↔ IsIndex key := by
  simp only [isIndex, Option.isSome_iff_exists, index?_eq_some_iff, IsIndex]

instance (key : String) : Decidable (IsIndex key) := decidable_of_iff _ (isIndex_iff key)

/-! ## Assigned entries -/

theorem assigned_append_singleton (assignments : List (String × α)) (e : String × α) :
    assigned (assignments ++ [e]) = put e.1 e.2 (assigned assignments) := by
  simp [assigned]

/-- The keys stand in the order in which they were assigned first. -/
theorem keys_assigned (assignments : List (String × α)) :
    (assigned assignments).map Prod.fst = (assignments.map Prod.fst).eraseDups := by
  induction assignments using List.reverseRecOn with
  | nil => rfl
  | append_singleton assignments e ih =>
    rw [assigned_append_singleton, keys_put, ih, List.map_append, List.map_singleton,
      eraseDups_append_singleton]
    simp only [List.mem_eraseDups]

/-- Every key has the value that it was given last. -/
theorem lookup_assigned (assignments : List (String × α)) (key : String) :
    (assigned assignments).lookup key = assignments.reverse.lookup key := by
  induction assignments using List.reverseRecOn with
  | nil => rfl
  | append_singleton assignments e ih =>
    rw [assigned_append_singleton, lookup_put, ih, List.reverse_append, List.reverse_singleton,
      List.singleton_append, lookup_cons]

theorem lookup_of_mem {entries : List (String × α)} (h : (entries.map Prod.fst).Nodup)
    {e : String × α} (he : e ∈ entries) : entries.lookup e.1 = some e.2 := by
  induction entries with
  | nil => cases he
  | cons first rest ih =>
    rw [List.map_cons, List.nodup_cons] at h
    rw [lookup_cons]
    rcases List.mem_cons.mp he with rfl | hrest
    · rw [if_pos rfl]
    · have hne : e.1 ≠ first.1 := by
        intro heq
        exact h.1 (heq ▸ List.mem_map_of_mem hrest)
      rw [if_neg hne]
      exact ih h.2 hrest

/-! ## Entries as they are read -/

/-- Among indices the smaller one is read first. -/
def before (a b : String × α) : Bool := (index? a.1).getD 0 ≤ (index? b.1).getD 0

theorem ordered_eq (entries : List (String × α)) :
    ordered entries =
      (entries.filter (fun e => isIndex e.1)).mergeSort before ++
        entries.filter (fun e => !isIndex e.1) := by
  unfold ordered
  rw [List.partition_eq_filter_filter]
  rfl

theorem perm_ordered (entries : List (String × α)) : (ordered entries).Perm entries := by
  rw [ordered_eq]
  exact ((List.mergeSort_perm _ _).append_right _).trans (List.filter_append_perm _ entries)

theorem pairwise_before (entries : List (String × α)) :
    (entries.mergeSort before).Pairwise (fun a b => before a b = true) := by
  apply List.pairwise_mergeSort
  · intro a b c hab hbc
    exact decide_eq_true (Nat.le_trans (of_decide_eq_true hab) (of_decide_eq_true hbc))
  · intro a b
    unfold before
    rw [Bool.or_eq_true, decide_eq_true_iff, decide_eq_true_iff]
    exact Nat.le_total _ _

/-- Sorted indices ascend, each standing once. -/
theorem keys_mergeSort {entries : List (String × α)} (h : (entries.map Prod.fst).Nodup)
    (hindex : ∀ e ∈ entries, IsIndex e.1) :
    ∃ indices : List Nat, indices.Pairwise (· < ·) ∧ (∀ n ∈ indices, n < 2 ^ 32 - 1) ∧
      (entries.mergeSort before).map Prod.fst = indices.map toString := by
  have hperm := List.mergeSort_perm entries before
  have hspelled : ∀ e ∈ entries.mergeSort before,
      (index? e.1).getD 0 < 2 ^ 32 - 1 ∧ e.1 = toString ((index? e.1).getD 0) := by
    intro e he
    obtain ⟨n, hn⟩ := hindex e (hperm.mem_iff.mp he)
    rw [(index?_eq_some_iff e.1 n).mpr hn]
    exact hn
  have hkeys : (entries.mergeSort before).map Prod.fst =
      ((entries.mergeSort before).map (fun e => (index? e.1).getD 0)).map toString := by
    rw [List.map_map]
    exact List.map_congr_left (fun e he => (hspelled e he).2)
  have hle : ((entries.mergeSort before).map (fun e => (index? e.1).getD 0)).Pairwise (· ≤ ·) := by
    rw [List.pairwise_map]
    exact (pairwise_before entries).imp of_decide_eq_true
  have hdistinct : ((entries.mergeSort before).map (fun e => (index? e.1).getD 0)).Nodup := by
    apply List.Nodup.of_map toString
    rw [← hkeys]
    exact (hperm.map Prod.fst).nodup_iff.mpr h
  refine ⟨_, (hle.and hdistinct).imp (fun hab => Nat.lt_of_le_of_ne hab.1 hab.2), ?_, hkeys⟩
  intro n hn
  obtain ⟨e, he, rfl⟩ := List.mem_map.mp hn
  exact (hspelled e he).1

/-- The keys of entries as they are read: the indices ascending, and then the others. -/
theorem keys_ordered {entries : List (String × α)} (h : (entries.map Prod.fst).Nodup) :
    ∃ indices : List Nat, indices.Pairwise (· < ·) ∧ (∀ n ∈ indices, n < 2 ^ 32 - 1) ∧
      (ordered entries).map Prod.fst = indices.map toString ++
        (entries.map Prod.fst).filter (fun key => ¬ IsIndex key) := by
  have hsome : ((entries.filter (fun e => isIndex e.1)).map Prod.fst).Nodup :=
    h.sublist (List.filter_sublist.map Prod.fst)
  have hindex : ∀ e ∈ entries.filter (fun e => isIndex e.1), IsIndex e.1 := by
    intro e he
    exact (isIndex_iff e.1).mp (List.mem_filter.mp he).2
  have hnames : (entries.map Prod.fst).filter (fun key => ¬ IsIndex key) =
      (entries.filter (fun e => !isIndex e.1)).map Prod.fst := by
    rw [List.filter_map]
    congr 1
    apply List.filter_congr
    intro e _
    rw [Bool.eq_iff_iff]
    simp [← isIndex_iff]
  obtain ⟨indices, hascending, hbelow, hkeys⟩ := keys_mergeSort hsome hindex
  refine ⟨indices, hascending, hbelow, ?_⟩
  rw [ordered_eq, List.map_append, hkeys, hnames]

/-! ## The law -/

/-- These entries are what the assignments leave. -/
structure LeftBy (assignments entries : List (String × α)) : Prop where
  /-- Every key stands once. -/
  nodup : (entries.map Prod.fst).Nodup
  /-- There are just the keys that were assigned. -/
  keys : ∀ key, key ∈ entries.map Prod.fst ↔ key ∈ assignments.map Prod.fst
  /-- First the array indices ascend, and then the others come as they were assigned first. -/
  order : ∃ indices : List Nat, indices.Pairwise (· < ·) ∧ (∀ n ∈ indices, n < 2 ^ 32 - 1) ∧
    entries.map Prod.fst = indices.map toString ++
      (assignments.map Prod.fst).eraseDups.filter (fun key => ¬ IsIndex key)
  /-- Every key has the value that it was given last. -/
  last : ∀ e ∈ entries, assignments.reverse.lookup e.1 = some e.2

theorem leftBy_ofAssignments (assignments : List (String × α)) :
    LeftBy assignments (ofAssignments assignments) := by
  have hkeys := keys_assigned assignments
  have hdistinct : ((assigned assignments).map Prod.fst).Nodup := by
    rw [hkeys]
    exact nodup_eraseDups _
  have hperm := perm_ordered (assigned assignments)
  exact
    { nodup := (hperm.map Prod.fst).nodup_iff.mpr hdistinct
      keys := by
        intro key
        rw [ofAssignments, (hperm.map Prod.fst).mem_iff, hkeys, List.mem_eraseDups]
      order := by
        rw [ofAssignments, ← hkeys]
        exact keys_ordered hdistinct
      last := by
        intro e he
        rw [← lookup_assigned]
        exact lookup_of_mem hdistinct (hperm.mem_iff.mp he) }

variable {assignments entries : List (String × α)}

theorem LeftBy.isEmpty_eq (h : LeftBy assignments entries) :
    entries.isEmpty = assignments.isEmpty := by
  cases assignments with
  | nil =>
    cases entries with
    | nil => rfl
    | cons e rest => simpa using (h.keys e.1).mp (by simp)
  | cons a rest =>
    cases entries with
    | nil => simpa using (h.keys a.1).mpr (by simp)
    | cons e rest => rfl

/-- What is left was assigned. -/
theorem LeftBy.mem (h : LeftBy assignments entries) {e : String × α} (he : e ∈ entries) :
    e ∈ assignments := by
  have hlast := h.last e he
  rw [List.lookup_eq_some_iff] at hlast
  obtain ⟨later, earlier, hsplit, -⟩ := hlast
  rw [← List.mem_reverse, hsplit]
  simp

end Entries

end BuildFeed
