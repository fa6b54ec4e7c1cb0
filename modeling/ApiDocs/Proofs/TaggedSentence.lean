import ApiDocs.Comment.Sentence
import ApiDocs.Proofs.Tagged

/-!
# The first sentence of a tagged comment

Inline tags are masked before the end of the first sentence is looked for, so the cut never goes
through a tag: the summary and the body of a tagged comment are tagged.
-/

namespace ApiDocs.Comment

open Text

/-! ### Masks -/

lemma maskTags_cons_of_ne {c : CodePoint} (h : c ≠ '{') (s : Text) :
    maskTags (c :: s) = c :: maskTags s := by
  rw [maskTags, scan_cons_of_none (inlineTag_of_ne h s)]
  rfl

/-- A tag is masked by as many letters. -/
lemma maskTags_text_append (t : WrittenTag) (s : Text) :
    maskTags (t.text ++ s) = Text.replicate t.text.length 'x' ++ maskTags s := by
  rw [maskTags, scan_append_of_some t.text_ne_nil (inlineTag_text t s), List.flatMap_cons]
  change t.text.map (fun _ => .char 'x') ++ maskTags s = _
  rw [List.map_const']
  rfl

/-! ### Cuts -/

/-- A tagged text can be cut at a place that is not inside a tag. -/
def CutsAt (s : Text) (n : Nat) : Prop := Tagged (s.take n) ∧ Tagged (s.drop n)

lemma Tagged.cutsAt_zero {s : Text} (h : Tagged s) : CutsAt s 0 := ⟨.nil, h⟩

lemma Tagged.cutsAt_length {s : Text} (h : Tagged s) : CutsAt s s.length := by
  rw [CutsAt, List.take_length, List.drop_length]
  exact ⟨h, .nil⟩

lemma CutsAt.append {p s : Text} (hp : Tagged p) {n : Nat} (h : CutsAt s n) :
    CutsAt (p ++ s) (p.length + n) := by
  rw [CutsAt, List.take_length_add_append, List.drop_length_add_append]
  exact ⟨hp.append h.1, h.2⟩

/-- A search that passes over masks finds only places where a tagged text can be cut. -/
lemma Tagged.cutsAt_of_search {find : Text → Option Nat} (hnil : find [] = none)
    (hcons : ∀ c s n, find (c :: s) = some n → n = 0 ∨ n = 1 ∨ ∃ k, find s = some k ∧ n = k + 1)
    (hmask : ∀ s, find (.char 'x' :: s) = (find s).map (· + 1)) {s : Text} (h : Tagged s) {n : Nat}
    (hn : find (maskTags s) = some n) : CutsAt s n := by
  induction h generalizing n with
  | nil =>
    change find [] = some n at hn
    rw [hnil] at hn
    cases hn
  | @point c s hopen hclose hs ih =>
    have hpoint : Tagged [c] := Tagged.nil.point hopen hclose
    rw [maskTags_cons_of_ne hopen] at hn
    rcases hcons _ _ _ hn with rfl | rfl | ⟨k, hk, rfl⟩
    · exact (hs.point hopen hclose).cutsAt_zero
    · exact ⟨hpoint, hs⟩
    · rw [Nat.add_comm]
      exact (ih hk).append hpoint
  | @tag t s hs ih =>
    have hskip (len : Nat) (u : Text) :
        find (Text.replicate len 'x' ++ u) = (find u).map (len + ·) := by
      induction len with
      | zero => simp [Text.replicate]
      | succ len ih =>
        rw [Text.replicate, List.replicate_succ, List.cons_append, hmask]
        rw [Text.replicate] at ih
        rw [ih, Option.map_map]
        congr 1
        funext k
        simp only [Function.comp_apply]
        omega
    rw [maskTags_text_append, hskip] at hn
    obtain ⟨k, hk, rfl⟩ := Option.map_eq_some_iff.1 hn
    exact (ih hk).append (.of_text t)

lemma Tagged.cutsAt_sentenceEnd {s : Text} (h : Tagged s) {n : Nat}
    (hn : sentenceEnd? (maskTags s) = some n) : CutsAt s n := by
  refine h.cutsAt_of_search rfl (fun c s n hn => ?_) (fun s => ?_) hn
  · rw [sentenceEnd?] at hn
    split at hn
    · exact .inr (.inl (Option.some.inj hn).symm)
    · obtain ⟨k, hk, rfl⟩ := Option.map_eq_some_iff.1 hn
      exact .inr (.inr ⟨k, hk, rfl⟩)
  · rfl

lemma Tagged.cutsAt_blockStart {s : Text} (h : Tagged s) {n : Nat}
    (hn : blockStart? (maskTags s) = some n) : CutsAt s n := by
  refine h.cutsAt_of_search rfl (fun c s n hn => ?_) (fun s => ?_) hn
  · rw [blockStart?] at hn
    split at hn
    · exact .inl (Option.some.inj hn).symm
    · obtain ⟨k, hk, rfl⟩ := Option.map_eq_some_iff.1 hn
      exact .inr (.inr ⟨k, hk, rfl⟩)
  · rfl

lemma Tagged.cutsAt_summaryLength {s : Text} (h : Tagged s) : CutsAt s (summaryLength s) := by
  have hsentence : CutsAt s ((sentenceEnd? (maskTags s)).getD s.length) := by
    cases hend : sentenceEnd? (maskTags s) with
    | none => exact h.cutsAt_length
    | some n => exact h.cutsAt_sentenceEnd hend
  rw [summaryLength]
  cases hblock : blockStart? (maskTags s) with
  | none => exact hsentence
  | some n =>
    change CutsAt s (min n _)
    rcases Nat.le_total n ((sentenceEnd? (maskTags s)).getD s.length) with hle | hle
    · rw [Nat.min_eq_left hle]
      exact h.cutsAt_blockStart hblock
    · rw [Nat.min_eq_right hle]
      exact hsentence

/-- The summary and the body of a tagged comment are tagged. -/
theorem Tagged.splitFirstSentence {comment : Text} (h : Tagged comment) :
    Tagged (splitFirstSentence comment).1 ∧ Tagged (splitFirstSentence comment).2 := by
  obtain ⟨htake, hdrop⟩ := h.trim.cutsAt_summaryLength
  exact ⟨htake.trim, hdrop.trim⟩

end ApiDocs.Comment
