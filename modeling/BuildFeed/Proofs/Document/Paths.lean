-- The documents of paths that name no host, for any writer of file URIs that does what is relied on.
-- Such a path gives its document by its absolute form alone, which can be read back from the URI. So two
-- paths have the same document just if they have the same absolute form, and no document has a query or
-- a fragment in its URI.
import BuildFeed.Document
import BuildFeed.Proofs.Document.FileUris
import BuildFeed.Proofs.Text.Percent

namespace BuildFeed.Document

open FileUri hiding write

/-- The absolute path that a path stands for, the letter of its drive in lower case. -/
def absolute (path : String) : List Char := lowerDrive (rooted path.toList)

/-- The document of an absolute path. -/
def ofAbsolute (path : List Char) : Document :=
  ⟨String.ofList ("file://".toList ++ Text.percentEncode keptInPath path)⟩

/-! ## From a path to its document -/

section

variable {write : String → Except Fault String} (hw : FileUri.Conforms write)

include hw

/-- A path that names no host has a document, which depends on its absolute form alone. -/
theorem ofFile_of_no_host {path : String} (h : startsWithSlashes path.toList = false) :
    ofFile write path = .ok (ofAbsolute (absolute path)) := by
  unfold ofFile
  rw [hw.writes path h]
  rfl

theorem ofFile_eq_error_iff {path : String} {e : Fault} :
    ofFile write path = .error e ↔ e = .slashes ∧ "////".toList <+: path.toList := by
  rw [← hw.refuses]
  unfold ofFile
  cases write path with
  | error f => simp [Except.map]
  | ok uri => exact iff_of_false nofun nofun

end

theorem ofPath_of_no_host {path : String} (h : startsWithSlashes path.toList = false) :
    ofPath path = .ok (ofAbsolute (absolute path)) :=
  ofFile_of_no_host FileUri.conforms_write h

theorem ofPath_eq_error_iff {path : String} {e : Fault} :
    ofPath path = .error e ↔ e = .slashes ∧ "////".toList <+: path.toList :=
  ofFile_eq_error_iff FileUri.conforms_write

/-! ## From a document to its path -/

theorem readable_keptInPath : Text.Readable keptInPath := by
  intro c hc
  refine ⟨?_, ?_⟩
  · rcases Bool.or_eq_true_iff.mp hc with hunreserved | hslash
    · exact Text.toNat_lt_of_isUnreserved hunreserved
    · rw [eq_of_beq hslash]
      decide
  · rintro rfl
    exact absurd hc (by decide)

theorem ofAbsolute_injective : Function.Injective ofAbsolute := by
  intro path other h
  unfold ofAbsolute at h
  rw [Document.mk.injEq, String.ofList_inj] at h
  exact Text.percentEncode_injective readable_keptInPath (List.append_cancel_left h)

/-! ## What a document spells -/

/-- The characters that stand for themselves in the path of a document. -/
def pathLetters : List Char :=
  "/ABCDEFGHIJKLMNOPQRSTUVWXYZabcdefghijklmnopqrstuvwxyz0123456789-._~".toList

theorem mem_pathLetters {c : Char} (h : keptInPath c = true) : c ∈ pathLetters := by
  have hall : ∀ n < 0x80, keptInPath (Char.ofNat n) = true → Char.ofNat n ∈ pathLetters := by
    decide +kernel
  have hc := hall c.toNat (readable_keptInPath c h).1
  rw [Char.ofNat_toNat] at hc
  exact hc h

/-- The path that is to be read from a document: with a slash at its start, and with the letter right
after that in lower case if a colon follows. -/
def spelled (path : String) : List Char :=
  let cs := if path.toList.head? = some '/' then path.toList else '/' :: path.toList
  if cs[1]?.any (fun c => 'A' ≤ c ∧ c ≤ 'Z') = true ∧ cs[2]? = some ':' then
    cs.modify 1 Char.toLower
  else cs

theorem spelled_eq_absolute (path : String) : spelled path = absolute path := by
  unfold spelled absolute
  simp only [← rooted_eq]
  obtain ⟨rest, hrest⟩ := exists_rooted_eq path.toList
  rw [hrest]
  rcases rest with _ | ⟨letter, _ | ⟨colon, rest⟩⟩
  · rfl
  · simp [lowerDrive]
  · have hupper : ('A' ≤ letter ∧ letter ≤ 'Z') ↔ letter.isUpper = true :=
      decide_eq_true_iff.symm
    by_cases hcolon : colon = ':'
    · subst hcolon
      simp [lowerDrive, hupper]
    · simp [lowerDrive, hcolon]

/-- A document's URI has no query and no fragment. -/
theorem not_mem_uri_ofAbsolute (path : List Char) {c : Char} (hc : c = '?' ∨ c = '#') :
    c ∉ (ofAbsolute path).uri.toList := by
  intro hmem
  unfold ofAbsolute at hmem
  simp only [String.toList_ofList, List.mem_append] at hmem
  rcases hmem with hscheme | hpath
  · rcases hc with rfl | rfl <;> exact absurd hscheme (by decide +kernel)
  · have hnot : ¬ (keptInPath c = true ∨ c = '%' ∨ c.isAlphanum = true) := by
      rcases hc with rfl | rfl <;> decide
    exact hnot (Text.mem_percentEncode hpath)

/-! ## The law -/

/-- The document of a path is a faithful encoding of it. Unless the path begins with two slashes, its
document is a file URI made of letters that stand for themselves and of percent-encoded bytes, the
path can be read back from it but for the slash at its start and the case of a drive's letter, and no
path that differs in more than that has the same document. -/
theorem a_document_spells_its_path {path : String} (h : ¬ "//".toList <+: path.toList) :
    ∃ body, ofPath path = .ok ⟨"file://" ++ String.ofList body⟩ ∧
      Text.Encoded pathLetters body ∧ Text.percentDecode? body = some (spelled path) ∧
      ∀ other : String, ¬ "//".toList <+: other.toList →
        (ofPath path = ofPath other ↔ spelled path = spelled other) := by
  have hpath := ofPath_of_no_host (startsWithSlashes_eq_false_iff.mpr h)
  refine ⟨Text.percentEncode keptInPath (absolute path), ?_, ?_, ?_, ?_⟩
  · rw [hpath]
    unfold ofAbsolute
    rw [String.ofList_append, String.ofList_toList]
  · exact Text.encoded_percentEncode (fun _ => mem_pathLetters) _
  · rw [spelled_eq_absolute]
    exact Text.percentDecode?_percentEncode readable_keptInPath _
  · intro other hother
    have hdocument := ofPath_of_no_host (startsWithSlashes_eq_false_iff.mpr hother)
    rw [hpath, hdocument, spelled_eq_absolute, spelled_eq_absolute, Except.ok.injEq]
    exact ofAbsolute_injective.eq_iff

theorem a_drive_and_a_clef_are_read_back :
    ofPath "C:/%20 𝄞é?" = .ok ⟨"file:///c%3A/%2520%20%F0%9D%84%9E%C3%A9%3F"⟩ ∧
      (∃ body, ofPath "C:/%20 𝄞é?" = .ok ⟨"file://" ++ String.ofList body⟩ ∧
        Text.Encoded pathLetters body ∧
        Text.percentDecode? body = some "/c:/%20 𝄞é?".toList) ∧
      ofPath "C:/%20 𝄞é?" = ofPath "/c:/%20 𝄞é?" ∧
      ofPath "C:/%20 𝄞é?" ≠ ofPath "c:/%20 𝄞É?" := by
  have hdrive : ¬ "//".toList <+: "C:/%20 𝄞é?".toList := by decide +kernel
  have hrooted : ¬ "//".toList <+: "/c:/%20 𝄞é?".toList := by decide +kernel
  have hother : ¬ "//".toList <+: "c:/%20 𝄞É?".toList := by decide +kernel
  have hspelled : spelled "C:/%20 𝄞é?" = "/c:/%20 𝄞é?".toList := by decide +kernel
  obtain ⟨body, hdocument, hencoded, hread, hsame⟩ := a_document_spells_its_path hdrive
  rw [hspelled] at hread
  refine ⟨?_, ⟨body, hdocument, hencoded, hread⟩, ?_, ?_⟩
  · rw [ofPath_of_no_host (startsWithSlashes_eq_false_iff.mpr hdrive), Except.ok.injEq]
    decide +kernel
  · exact (hsame _ hrooted).mpr (by decide +kernel)
  · exact fun h => absurd ((hsame _ hother).mp h) (by decide +kernel)

end BuildFeed.Document
