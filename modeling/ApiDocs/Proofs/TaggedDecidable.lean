import ApiDocs.Proofs.TagForms

/-!
# Deciding whether a text is tagged

A scan for inline tags finds every tag of a tagged text, so a text is tagged if the scan leaves no
brace over and the tags that it finds close their parentheses.
-/

namespace ApiDocs.Comment

open Text

/-- Whether a piece is a code point other than a brace, or a tag without an open parenthesis. -/
def Piece.isProper : Piece InlineTag → Bool
  | point c => c != '{' && c != '}'
  | hit _ covered => closesParentheses covered

/-- Whether a scan for tags finds no brace outside of them and no open parenthesis inside. -/
def isTagged (s : Text) : Bool := (scan inlineTag s).all Piece.isProper

lemma closesParentheses_concat (u : Text) :
    closesParentheses (u ++ [.char '}']) = closesParentheses u := by
  induction u with
  | nil => rfl
  | cons c u ih => simp [closesParentheses, ih]

lemma closesParentheses_text {name : Text} (h : ∀ c ∈ name, isWord c = true) (content : Text) :
    closesParentheses (tagOpening ++ (name ++ content ++ [.char '}'])) =
      closesParentheses content := by
  have hname : (.char '(' : CodePoint) ∉ name := fun hmem => absurd (h _ hmem) (by decide)
  have hopening : (.char '(' : CodePoint) ∉ tagOpening := by decide
  rw [closesParentheses_append hopening, closesParentheses_concat, closesParentheses_append hname]

lemma isTagged_append_of_some {s t : Text} {a : InlineTag} (hs : s ≠ [])
    (h : inlineTag (s ++ t) = some (a, t)) :
    isTagged (s ++ t) = (closesParentheses s && isTagged t) := by
  rw [isTagged, scan_append_of_some hs h]
  rfl

lemma isTagged_cons_of_none {c : CodePoint} {s : Text} (h : inlineTag (c :: s) = none) :
    isTagged (c :: s) = ((c != '{' && c != '}') && isTagged s) := by
  rw [isTagged, scan_cons_of_none h]
  rfl

/-- A scan decides whether a text is tagged. -/
theorem isTagged_iff (s : Text) : isTagged s = true ↔ Tagged s := by
  constructor
  · intro h
    induction s using isLocal_inlineTag.scan_induction with
    | nil => exact .nil
    | point c s hnone ih =>
      rw [isTagged_cons_of_none hnone, Bool.and_eq_true, Bool.and_eq_true, bne_iff_ne,
        bne_iff_ne] at h
      exact (ih h.2).point h.1.1 h.1.2
    | hit a w s hw hfind ih =>
      obtain ⟨content, htext, hne, hword, hblank, hopen, hclose⟩ :=
        exists_content_of_inlineTag hfind
      have hcovered : w = tagOpening ++ (a.name ++ content ++ [.char '}']) := by
        apply (List.append_left_inj s).1
        rw [htext]
        simp
      rw [isTagged_append_of_some hw hfind, Bool.and_eq_true, hcovered,
        closesParentheses_text hword] at h
      have htagged := (ih h.2).tag ⟨a.name, content, hne, hword, hblank, hopen, hclose, h.1⟩
      rw [WrittenTag.text_append] at htagged
      rwa [htext]
  · intro h
    induction h with
    | nil => rfl
    | @point c s hopen hclose _ ih =>
      rw [isTagged_cons_of_none (inlineTag_of_ne hopen _), ih]
      simp [hopen, hclose]
    | @tag t s _ ih =>
      have hcloses : closesParentheses t.text = true := by
        have htext := t.text_append []
        rw [List.append_nil] at htext
        rw [htext, closesParentheses_text t.isWord_of_mem, t.closes]
      rw [isTagged_append_of_some t.text_ne_nil (inlineTag_text t s), ih, hcloses]
      rfl

instance : DecidablePred Tagged := fun s => decidable_of_iff _ (isTagged_iff s)

end ApiDocs.Comment
