import ApiDocs.Comment.Mention
import ApiDocs.Proofs.TagForms

/-!
# Targets of links and of `see` tags

A link and a `see` tag are read by recognisers of their own. In a text without braces both find the
same target, which ends with the first parenthesised part if that can be closed, and leave the same
label.
-/

namespace ApiDocs.Comment

open Text

/-! ### Up to the brace that closes a link -/

lemma parenthesised_concat {d : CodePoint} (hd : d ≠ ')') (s : Text) :
    parenthesised (s ++ [d]) = (parenthesised s).map fun p => (p.1, p.2 ++ [d]) := by
  cases s with
  | nil =>
    by_cases hopen : d = '('
    · rw [hopen]
      rfl
    · rw [List.nil_append, parenthesised]
      · rfl
      · simpa using hopen
  | cons c s =>
    by_cases hopen : c = '('
    · subst hopen
      by_cases hclosed : (.char ')' : CodePoint) ∈ s
      · obtain ⟨a, b, -, hcut⟩ := cutAt_append hclosed
        have hself := hcut []
        rw [List.append_nil, List.append_nil] at hself
        rw [List.cons_append, parenthesised, hcut, parenthesised, hself]
        rfl
      · have hlonger : (.char ')' : CodePoint) ∉ s ++ [d] := by simp [hclosed, Ne.symm hd]
        rw [List.cons_append, parenthesised, cutAt_of_notMem hlonger, parenthesised,
          cutAt_of_notMem hclosed]
        rfl
    · have hnone (t : Text) : parenthesised (c :: t) = none := by
        rw [parenthesised]
        rintro u heq
        exact hopen (List.cons.inj heq).1
      rw [List.cons_append, hnone, hnone, Option.map_none]

section

variable {s : Text} (hopen : (.char '{' : CodePoint) ∉ s) (hclose : (.char '}' : CodePoint) ∉ s)

include hopen hclose

/-- Before the brace that closes a link, its target ends where that of a `see` tag does. -/
lemma target_cut_concat :
    (s ++ [(.char '}' : CodePoint)]).takeWhile isTargetChar = s.takeWhile isSeeChar ∧
      (s ++ [(.char '}' : CodePoint)]).dropWhile isTargetChar =
        s.dropWhile isSeeChar ++ [.char '}'] := by
  have hbrace : isTargetChar '}' = false := by decide
  have hsame : ∀ c ∈ s, isTargetChar c = isSeeChar c := by
    intro c hc
    have hopen' : c ≠ '{' := fun he => hopen (he ▸ hc)
    have hclose' : c ≠ '}' := fun he => hclose (he ▸ hc)
    rw [isTargetChar, isSeeChar, bne_iff_ne.2 hopen', bne_iff_ne.2 hclose', Bool.and_true,
      Bool.and_true]
  obtain ⟨htake, hdrop⟩ := cut_congr hsame
  rw [takeWhile_append_seam hbrace, dropWhile_append_seam hbrace, htake, hdrop]
  exact ⟨rfl, rfl⟩

/-- What follows the name in a link tag is read like the text of a `see` tag. -/
lemma linkContent_concat (htrim : trim s = s) (hquote : s.head? ≠ some (.char '"'))
    (hangle : s.head? ≠ some (.char '<')) :
    linkContent (s ++ [.char '}']) = (seeMention? s).map fun m => (⟨m.text, m.label⟩, []) := by
  obtain ⟨htarget, hafter⟩ := target_cut_concat hopen hclose
  have hclosed {u : Text} (hu : u <:+ s) : untilClose (u ++ [.char '}']) = some (u, []) :=
    untilClose_append (mt (hu.subset ·) hopen) (mt (hu.subset ·) hclose) []
  have hdrop : s.dropWhile isSeeChar <:+ s := List.dropWhile_suffix _
  rw [linkContent_eq, linkWithPart, linkWithoutPart, htarget, hafter, hclosed hdrop,
    parenthesised_concat (by decide), seeMention?, htrim]
  by_cases hnone : s.takeWhile isSeeChar = []
  · simp [hnone]
  · have hhead : (s.takeWhile isSeeChar).head? = s.head? := by
      obtain ⟨c, t, hs⟩ := List.exists_cons_of_ne_nil hnone
      rw [hs, ← List.takeWhile_append_dropWhile (p := isSeeChar) (l := s), hs]
      rfl
    cases hpart : parenthesised (s.dropWhile isSeeChar) with
    | none => simp [hnone, hhead, hquote, hangle]
    | some p =>
      obtain ⟨part, rest⟩ := p
      obtain ⟨-, -, hsplit, -⟩ := eq_of_parenthesised hpart
      have hrest : rest <:+ s.dropWhile isSeeChar := ⟨part, hsplit.symm⟩
      simp [hnone, hhead, hquote, hangle, hclosed (hrest.trans hdrop)]

end

/-! ### Link tags -/

/-- A link tag: a name, white space, and what is linked to. -/
def linkTag (name gap s : Text) : Text := tagOpening ++ (name ++ (gap ++ (s ++ [.char '}'])))

section

variable {name gap s : Text} (hname : name = "link" ∨ name = "linkplain")
  (hgap : ∀ c ∈ gap, isBlank c = true) (hopen : (.char '{' : CodePoint) ∉ s)

include hname hgap hopen

/-- A link tag has one opening brace, so it is one link or has none. -/
lemma inlineLinks_linkTag {o : Option InlineLink}
    (h : inlineLink (linkTag name gap s) = o.map (·, [])) :
    inlineLinks (linkTag name gap s) = o.toList := by
  have htag : linkTag name gap s =
      .char '{' :: (.char '@' :: (name ++ (gap ++ (s ++ [.char '}'])))) := rfl
  cases o with
  | some l =>
    have hscan := scan_append_of_some (t := []) (htag ▸ List.cons_ne_nil _ _)
      (by rw [List.append_nil]; exact h)
    rw [List.append_nil] at hscan
    rw [inlineLinks, allMatches, hscan]
    rfl
  | none =>
    have hrest : (.char '{' : CodePoint) ∉ .char '@' :: (name ++ (gap ++ (s ++ [.char '}']))) := by
      have hname' : (.char '{' : CodePoint) ∉ name := by
        rcases hname with rfl | rfl
        · decide
        · decide
      have hgap' : (.char '{' : CodePoint) ∉ gap := fun hmem =>
        ne_of_isBlank (hgap _ hmem) (by decide) rfl
      simp [hname', hgap', hopen]
    rw [htag] at h ⊢
    rw [inlineLinks_cons_of_none h, ← List.append_nil (_ :: _), inlineLinks_append_of_notMem hrest]
    rfl

end

/-- A link and a `see` tag read a trimmed text without braces alike, unless it is quoted or begins
like a piece of HTML: both find no target, or both find the same mention. -/
theorem mentions_linkTag {name gap s : Text} (hname : name = "link" ∨ name = "linkplain")
    (hne : gap ≠ []) (hgap : ∀ c ∈ gap, isBlank c = true) (htrim : trim s = s)
    (hopen : (.char '{' : CodePoint) ∉ s) (hclose : (.char '}' : CodePoint) ∉ s)
    (hquote : s.head? ≠ some (.char '"')) (hangle : s.head? ≠ some (.char '<')) :
    mentions (linkTag name gap s) = (seeMention? s).toList := by
  have hhead : ∀ c ∈ (s ++ [(.char '}' : CodePoint)]).head?, isBlank c = false := by
    rintro c hc
    cases s with
    | nil =>
      cases hc
      rfl
    | cons d s => exact not_isBlank_of_head? htrim hc
  have hlink : inlineLink (linkTag name gap s) =
      ((seeMention? s).map fun m => ⟨m.text, m.label⟩).map (·, []) := by
    rw [linkTag, inlineLink_append_gap hname hne hgap hhead,
      linkContent_concat hopen hclose htrim hquote hangle, Option.map_map]
    rfl
  rw [mentions, inlineLinks_linkTag hname hgap hopen hlink]
  cases seeMention? s with
  | none => rfl
  | some m => rfl

/-- Targets whose parenthesis is closed after a line break, and never. -/
theorem mentions_linkTag_parentheses :
    mentions (linkTag "linkplain" "\n " "Map#of(K key,\n V value) a (small) map") =
        [⟨"Map#of(K key,\n V value)", "a (small) map"⟩] ∧
      mentions (linkTag "link" " " "List#of(E first and more") =
        [⟨"List#of", "(E first and more"⟩] :=
  ⟨mentions_linkTag (.inr rfl) (by decide) (by decide) rfl (by decide) (by decide) (by decide)
    (by decide), mentions_linkTag (.inl rfl) (by decide) (by decide) rfl (by decide) (by decide)
    (by decide) (by decide)⟩

end ApiDocs.Comment
