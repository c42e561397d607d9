-- The writer of file URIs keeps to what documents rely on. It is two slashes at the start of a path
-- that name a host, so a path without them is written as it is, made absolute.
import Mathlib.Data.List.Basic
import BuildFeed.FileUri

namespace BuildFeed.FileUri

/-! ## Slashes at the start -/

theorem startsWithSlashes_eq_false_iff {cs : List Char} :
    startsWithSlashes cs = false ↔ ¬ "//".toList <+: cs := by
  have htwo : "//".toList = ['/', '/'] := by decide
  rw [htwo]
  constructor
  · rintro h ⟨rest, rfl⟩
    cases h
  · intro h
    unfold startsWithSlashes
    split
    · exact absurd ⟨_, rfl⟩ h
    · rfl

theorem rooted_eq (cs : List Char) :
    rooted cs = if cs.head? = some '/' then cs else '/' :: cs := by
  unfold rooted
  split
  · simp
  · rename_i hrelative
    rw [if_neg]
    intro hslash
    obtain ⟨rest, rfl⟩ := List.head?_eq_some_iff.mp hslash
    exact hrelative rest rfl

theorem exists_rooted_eq (cs : List Char) : ∃ rest, rooted cs = '/' :: rest := by
  unfold rooted
  split
  · exact ⟨_, rfl⟩
  · exact ⟨_, rfl⟩

theorem hostAndPath_of_no_host {path : List Char} (h : startsWithSlashes path = false) :
    hostAndPath path = ([], path) := by
  unfold hostAndPath
  split
  · cases h
  · rfl

theorem startsWithSlashes_rooted {path : List Char} (h : startsWithSlashes path = false) :
    startsWithSlashes (rooted path) = false := by
  unfold rooted
  split
  · exact h
  · rename_i hrelative
    unfold startsWithSlashes
    split
    · rename_i heq
      cases heq
      exact absurd rfl (hrelative _)
    · rfl

/-- A path is refused if it has no host and its path on that would begin with two slashes, which takes
four slashes at its start. -/
theorem no_host_and_slashes_iff (path : List Char) :
    ((hostAndPath path).1 = [] ∧ startsWithSlashes (rooted (hostAndPath path).2) = true) ↔
      "////".toList <+: path := by
  have hfour : "////".toList = ['/', '/', '/', '/'] := by decide
  rw [hfour]
  by_cases hslashes : startsWithSlashes path = true
  · unfold startsWithSlashes at hslashes
    split at hslashes
    · rename_i rest
      rcases rest with _ | ⟨c, tail⟩
      · simp [hostAndPath, rooted, startsWithSlashes]
      · by_cases hc : c = '/'
        · subst hc
          rcases tail with _ | ⟨d, tail⟩
          · simp [hostAndPath, rooted, startsWithSlashes]
          · by_cases hd : d = '/'
            · simp [hostAndPath, rooted, startsWithSlashes, hd]
            · simp [hostAndPath, rooted, startsWithSlashes, hd, Ne.symm hd]
        · have hhost : (hostAndPath ('/' :: '/' :: c :: tail)).1 ≠ [] := by
            simp only [hostAndPath]
            split <;> simp [hc]
          simp [hhost, Ne.symm hc]
    · cases hslashes
  · rw [Bool.not_eq_true] at hslashes
    rw [hostAndPath_of_no_host hslashes, startsWithSlashes_rooted hslashes]
    constructor
    · rintro ⟨-, h⟩
      cases h
    · rintro ⟨rest, rfl⟩
      cases hslashes

/-! ## The writer -/

theorem conforms_write : Conforms write where
  refuses := by
    intro path e
    rw [← no_host_and_slashes_iff]
    unfold write
    simp only
    split
    · rename_i h
      simp [h, eq_comm]
    · rename_i h
      simp [h]
  writes := by
    intro path h
    have hslashes := startsWithSlashes_rooted h
    unfold write
    simp only [hostAndPath_of_no_host h, hslashes]
    rfl

end BuildFeed.FileUri
