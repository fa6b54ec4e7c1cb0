import ApiDocs.Proofs.Joining
import ApiDocs.Proofs.Landmarks

/-!
# Files of pages

The page of a package or type is written to a file whose path shows the segments of the name. Two
names have one file exactly where they have the same segments, or where the root of the page paths
has a number sign, at which every path is cut.
-/

namespace ApiDocs

open Text

/-! ### Segments of names -/

namespace Markdown

lemma isSegmentChar_of_mem_pathSegment {s : Text} {c : CodePoint} (h : c ∈ pathSegment s) :
    isSegmentChar c = true := by
  rw [pathSegment] at h
  split at h
  · revert h c
    decide
  · rcases mem_collapseRuns ((trimDashes_sublist _).subset h) with rfl | hchar
    · decide
    · simpa using hchar

lemma head?_pathSegment (s : Text) : (pathSegment s).head? ≠ some (.char '-') := by
  rw [pathSegment]
  split
  · decide
  · intro h
    have hdash := not_of_head?_dropWhile (head?_of_head?_dropRightWhile h)
    exact absurd hdash (by decide)

lemma getLast?_pathSegment (s : Text) : (pathSegment s).getLast? ≠ some (.char '-') := by
  rw [pathSegment]
  split
  · decide
  · intro h
    have hdash := not_of_getLast?_dropRightWhile h
    exact absurd hdash (by decide)

lemma pathSegment_ne_nil (s : Text) : pathSegment s ≠ [] := by
  rw [pathSegment]
  split
  · decide
  · rename_i h
    simpa using h

/-- The path segments of a name. -/
def segments (name : Text) : List Text := (splitWhere (· == '.') name).map pathSegment

lemma segments_ne_nil (name : Text) : segments name ≠ [] := by
  simpa [segments] using splitWhere_ne_nil (· == .char '.') name

lemma isSegmentChar_of_mem_segments {name segment : Text} (h : segment ∈ segments name) :
    ∀ c ∈ segment, isSegmentChar c = true := by
  obtain ⟨s, -, rfl⟩ := List.mem_map.1 h
  exact fun c hc => isSegmentChar_of_mem_pathSegment hc

lemma notMem_of_mem_segments {name segment : Text} (h : segment ∈ segments name) {c : CodePoint}
    (hc : isSegmentChar c = false) : c ∉ segment := fun hmem =>
  Bool.eq_false_iff.1 hc (isSegmentChar_of_mem_segments h c hmem)

/-- The path of a name starts with a code point of its first segment. -/
lemma exists_cons_joinWith_segments (name : Text) :
    ∃ c s, joinWith "/" (segments name) = c :: s ∧ isSegmentChar c = true := by
  have hne : ∀ segment ∈ segments name, segment ≠ [] := by
    intro segment hsegment
    obtain ⟨s, -, rfl⟩ := List.mem_map.1 hsegment
    exact pathSegment_ne_nil s
  obtain ⟨c, s, hfirst, segment, hsegment, hc⟩ :=
    exists_cons_joinWith "/" (segments_ne_nil name) hne
  exact ⟨c, s, hfirst, isSegmentChar_of_mem_segments hsegment c hc⟩

end Markdown

/-! ### Files -/

/-- What stands in front of the segments in the paths of files. -/
def fileRoot (apiRoot : Text) : Text :=
  (dropRightWhile (· == '/') apiRoot ++ "/").dropWhile (· == .char '/')

section

variable {apiRoot : Text}

lemma outputFile_pagePath (h : CodePoint.char '#' ∉ apiRoot) (name : Text) :
    outputFile (pagePath apiRoot name) =
      fileRoot apiRoot ++ joinWith "/" (Markdown.segments name) ++ ".md" := by
  have hpath : pagePath apiRoot name = dropRightWhile (· == '/') apiRoot ++ "/" ++
      joinWith "/" (Markdown.segments name) := rfl
  have hcut : CodePoint.char '#' ∉ pagePath apiRoot name := by
    rw [hpath, List.mem_append, List.mem_append]
    rintro ((hmem | hmem) | hmem)
    · rw [← dropRightWhile_append_takeRightWhile (· == '/') apiRoot] at h
      exact h (List.mem_append_left _ hmem)
    · exact absurd hmem (by decide)
    · obtain hsep | ⟨segment, hsegment, hmem⟩ := mem_joinWith hmem
      · cases hsep
      · exact Markdown.notMem_of_mem_segments hsegment (by decide) hmem
  obtain ⟨c, s, hfirst, hchar⟩ := Markdown.exists_cons_joinWith_segments name
  have hslash : (c == .char '/') = false := by
    rw [beq_eq_false_iff_ne]
    rintro rfl
    exact absurd hchar (by decide)
  have hkept : (pagePath apiRoot name).takeWhile (· != .char '#') = pagePath apiRoot name := by
    rw [List.takeWhile_eq_self_iff]
    intro d hd
    rw [bne_iff_ne]
    rintro rfl
    exact hcut hd
  have hdropped : (dropRightWhile (· == '/') apiRoot ++ "/" ++ c :: s).dropWhile (· == .char '/') =
      fileRoot apiRoot ++ c :: s := dropWhile_append_seam (p := (· == .char '/')) hslash _ _
  rw [outputFile, hkept, hpath, hfirst, hdropped]

/-- A number sign in the root cuts all paths alike. -/
lemma outputFile_pagePath_of_hash (h : CodePoint.char '#' ∈ apiRoot) (name name' : Text) :
    outputFile (pagePath apiRoot name) = outputFile (pagePath apiRoot name') := by
  have hstripped : CodePoint.char '#' ∈ dropRightWhile (· == '/') apiRoot := by
    rw [← dropRightWhile_append_takeRightWhile (· == '/') apiRoot, List.mem_append] at h
    apply h.resolve_right
    intro hmem
    have hslash := List.mem_takeWhile_imp (List.mem_reverse.1 hmem)
    exact absurd hslash (by decide)
  obtain ⟨s, t, hroot⟩ := List.append_of_mem hstripped
  have hcut (n : Text) : (pagePath apiRoot n).takeWhile (· != .char '#') =
      s.takeWhile (· != .char '#') := by
    rw [pagePath, hroot, List.append_assoc, List.append_assoc, List.cons_append,
      takeWhile_append_seam (by decide)]
  rw [outputFile, outputFile, hcut, hcut]

/-- Names have one file if they have the same segments, and only then unless the root has a number
sign. -/
lemma pageFile_eq_iff (apiRoot name name' : Text) :
    outputFile (pagePath apiRoot name) = outputFile (pagePath apiRoot name') ↔
      .char '#' ∈ apiRoot ∨ Markdown.segments name = Markdown.segments name' := by
  by_cases hroot : CodePoint.char '#' ∈ apiRoot
  · simp [hroot, outputFile_pagePath_of_hash hroot name name']
  · have hslash (n : Text) : ∀ segment ∈ Markdown.segments n, CodePoint.char '/' ∉ segment :=
      fun segment h => Markdown.notMem_of_mem_segments h (by decide)
    rw [outputFile_pagePath hroot, outputFile_pagePath hroot, List.append_cancel_right_eq,
      List.append_cancel_left_eq]
    simp only [hroot, false_or]
    exact joinWith_inj (Markdown.segments_ne_nil _) (Markdown.segments_ne_nil _) (hslash _)
      (hslash _)

end

end ApiDocs
