import ApiDocs.Proofs.Cutting
import Mathlib.Data.List.Basic

/-!
# Texts where braces only delimit inline tags

A tagged text is put together from inline tags and from code points other than braces. In a tag,
parentheses that are opened are closed. Whether there is a link at a tag depends on the tag alone,
so the links of tagged texts that are put together are the links of the one and those of the other.
-/

namespace ApiDocs.Comment

open Text

variable {α : Type}

/-! ### Scanning -/

section

variable (find : Recogniser α)

lemma scanFrom_eq (skip : Nat) (s : Text) : scanFrom find skip s = scan find (s.drop skip) := by
  induction s generalizing skip with
  | nil => cases skip <;> rfl
  | cons c s ih =>
    cases skip with
    | zero => rfl
    | succ skip => exact ih skip

variable {find}

lemma scan_cons_of_none {c : CodePoint} {s : Text} (h : find (c :: s) = none) :
    scan find (c :: s) = .point c :: scan find s := by
  rw [scan, scanFrom, h]
  rfl

/-- A match at the start is a piece, and the scan goes on after it. -/
lemma scan_append_of_some {s t : Text} {a : α} (hs : s ≠ []) (h : find (s ++ t) = some (a, t)) :
    scan find (s ++ t) = .hit a s :: scan find t := by
  obtain ⟨c, s, rfl⟩ := List.exists_cons_of_ne_nil hs
  rw [List.cons_append] at h ⊢
  rw [scan, scanFrom, h]
  simp [scanFrom_eq]

end

lemma tagOpening_isPrefixOf?_of_ne {c : CodePoint} (h : c ≠ '{') (s : Text) :
    tagOpening.isPrefixOf? (c :: s) = none := by
  change List.isPrefixOf? (CodePoint.char '{' :: _) (c :: s) = none
  rw [isPrefixOf?_cons_cons, if_neg (by simpa using Ne.symm h)]

lemma inlineTag_of_ne {c : CodePoint} (h : c ≠ '{') (s : Text) :
    inlineTag (c :: s) = none := by
  rw [inlineTag, tagOpening_isPrefixOf?_of_ne h, Option.bind_none]

lemma inlineLink_of_ne {c : CodePoint} (h : c ≠ '{') (s : Text) :
    inlineLink (c :: s) = none := by
  rw [inlineLink, tagOpening_isPrefixOf?_of_ne h, Option.bind_none]

/-! ### Tags as they are written -/

/-- Whether every opening parenthesis has a closing one after it. -/
def closesParentheses : Text → Bool
  | [] => true
  | c :: s => (c != '(' || s.contains ')') && closesParentheses s

/-- An inline tag as it is written: what follows the name begins with white space, holds no brace,
and closes the parentheses that it opens. -/
structure WrittenTag where
  name : Text
  content : Text
  name_ne_nil : name ≠ []
  isWord_of_mem : ∀ c ∈ name, isWord c = true
  isBlank_of_head : ∀ c ∈ content.head?, isBlank c = true
  no_opening : (.char '{' : CodePoint) ∉ content
  no_closing : (.char '}' : CodePoint) ∉ content
  closes : closesParentheses content = true

namespace WrittenTag

variable (t : WrittenTag)

/-- What stands between the braces of a tag. -/
def inside : Text := '@' :: (t.name ++ t.content)

def text : Text := '{' :: (t.inside ++ [.char '}'])

lemma text_append (s : Text) :
    t.text ++ s = tagOpening ++ (t.name ++ t.content ++ .char '}' :: s) := by
  simp [text, inside, tagOpening, Text.ofString, Text.ofChars]

lemma text_append_eq (s : Text) : t.text ++ s = .char '{' :: t.inside ++ .char '}' :: s := by
  simp [text]

lemma text_ne_nil : t.text ≠ [] := List.cons_ne_nil _ _

lemma opening_notMem_inside : (.char '{' : CodePoint) ∉ t.inside := by
  have hname : (.char '{' : CodePoint) ∉ t.name := fun h => absurd (t.isWord_of_mem _ h) (by decide)
  simp [inside, hname, t.no_opening]

lemma closing_notMem_inside : (.char '}' : CodePoint) ∉ t.inside := by
  have hname : (.char '}' : CodePoint) ∉ t.name := fun h => absurd (t.isWord_of_mem _ h) (by decide)
  simp [inside, hname, t.no_closing]

lemma opening_notMem_rest : (.char '{' : CodePoint) ∉ t.inside ++ [.char '}'] := by
  simp [t.opening_notMem_inside]

end WrittenTag

/-- Braces stand only where inline tags begin and end. -/
inductive Tagged : Text → Prop
  | nil : Tagged []
  | point {c : CodePoint} {s : Text} : c ≠ '{' → c ≠ '}' → Tagged s → Tagged (c :: s)
  | tag (t : WrittenTag) {s : Text} : Tagged s → Tagged (t.text ++ s)

namespace Tagged

lemma append {s t : Text} (hs : Tagged s) (ht : Tagged t) : Tagged (s ++ t) := by
  induction hs with
  | nil => exact ht
  | point hopen hclose _ ih => exact ih.point hopen hclose
  | tag t _ ih =>
    rw [List.append_assoc]
    exact ih.tag t

end Tagged

/-! ### Recognising a tag -/

lemma untilClose_append {u : Text} (hopen : (.char '{' : CodePoint) ∉ u)
    (hclose : (.char '}' : CodePoint) ∉ u) (s : Text) :
    untilClose (u ++ .char '}' :: s) = some (u, s) := by
  induction u with
  | nil => rfl
  | cons c u ih =>
    obtain ⟨hc, hu⟩ := not_or.1 (mt List.mem_cons.2 hopen)
    obtain ⟨hc', hu'⟩ := not_or.1 (mt List.mem_cons.2 hclose)
    rw [List.cons_append, untilClose, if_neg (Ne.symm hc'), if_neg (Ne.symm hc), ih hu hu']
    rfl

/-- A tag is recognised where it is written, and nothing after it belongs to it. -/
lemma inlineTag_written {name content : Text} (hne : name ≠ [])
    (hword : ∀ c ∈ name, isWord c = true) (hblank : ∀ c ∈ content.head?, isBlank c = true)
    (hopen : (.char '{' : CodePoint) ∉ content) (hclose : (.char '}' : CodePoint) ∉ content)
    (s : Text) : inlineTag (tagOpening ++ (name ++ content ++ .char '}' :: s)) =
      some (⟨name, trim content⟩, s) := by
  have hstart : tagOpening.isPrefixOf? (tagOpening ++ (name ++ content ++ .char '}' :: s)) =
      some (name ++ (content ++ .char '}' :: s)) := by
    rw [List.isPrefixOf?_eq_some_iff_append_eq, List.append_assoc]
  have hname : name.isEmpty = false := by simp [hne]
  have hcut {d : CodePoint} (hd : isWord d = false) (u : Text) :
      (name ++ d :: u).takeWhile isWord = name ∧ (name ++ d :: u).dropWhile isWord = d :: u := by
    rw [takeWhile_append_seam hd, dropWhile_append_seam hd, List.takeWhile_eq_self_iff.2 hword,
      List.dropWhile_eq_nil_iff.2 hword]
    exact ⟨rfl, rfl⟩
  rw [inlineTag, hstart, Option.bind_some]
  cases content with
  | nil =>
    obtain ⟨htake, hdrop⟩ := hcut (by decide : isWord '}' = false) s
    simp only [List.nil_append, htake, hdrop, hname]
    rfl
  | cons c u =>
    have hc : isBlank c = true := hblank c rfl
    have hne' : c ≠ '}' := fun h => hclose (h ▸ List.mem_cons_self ..)
    -- the white space after the name is cut off, so the rest still holds no brace
    have hbraces {b : CodePoint} (hb : b ∉ c :: u) : b ∉ trimLeft u := fun hmem =>
      hb (List.mem_cons_of_mem _ ((List.dropWhile_sublist _).subset hmem))
    have htrim : trim (trimLeft u) = trim (c :: u) := by
      rw [trim, trim, trimLeft, trimLeft, trimLeft, List.dropWhile_idempotent,
        List.dropWhile_cons_of_pos hc]
    obtain ⟨htake, hdrop⟩ := hcut (not_isWord_of_isBlank hc) (u ++ .char '}' :: s)
    simp only [List.cons_append, htake, hdrop, hname]
    rw [trimLeft_append_seam (by decide), untilClose_append (hbraces hopen) (hbraces hclose)]
    simp [hc, htrim]

lemma inlineTag_text (t : WrittenTag) (s : Text) :
    inlineTag (t.text ++ s) = some (⟨t.name, trim t.content⟩, s) := by
  rw [t.text_append]
  exact inlineTag_written t.name_ne_nil t.isWord_of_mem t.isBlank_of_head t.no_opening
    t.no_closing s

/-! ### Links at a tag -/

lemma closesParentheses_of_suffix {s u : Text} (h : u <:+ s) (hs : closesParentheses s = true) :
    closesParentheses u = true := by
  obtain ⟨r, rfl⟩ := h
  induction r with
  | nil => exact hs
  | cons c r ih =>
    rw [List.cons_append, closesParentheses, Bool.and_eq_true] at hs
    exact ih hs.2

lemma closesParentheses_append {u : Text} (h : (.char '(' : CodePoint) ∉ u) (s : Text) :
    closesParentheses (u ++ s) = closesParentheses s := by
  induction u with
  | nil => rfl
  | cons c u ih =>
    obtain ⟨hc, hu⟩ := not_or.1 (mt List.mem_cons.2 h)
    rw [List.cons_append, closesParentheses, ih hu, bne_iff_ne.2 (Ne.symm hc)]
    rfl

lemma afterLinkName_append {name : Text} (h : (.char '}' : CodePoint) ∉ name) (u s : Text) :
    afterLinkName name (u ++ .char '}' :: s) =
      (afterLinkName name u).map (· ++ .char '}' :: s) := by
  rw [afterLinkName, afterLinkName, isPrefixOf?_append_seam h]
  cases name.isPrefixOf? u with
  | none => rfl
  | some r =>
    cases r with
    | nil => rfl
    | cons c r =>
      simp only [Option.map_some, List.cons_append]
      split
      · rw [trimLeft_append_seam (by decide)]
        rfl
      · rfl

lemma suffix_of_afterLinkName {name u r : Text} (h : afterLinkName name u = some r) : r <:+ u := by
  rw [afterLinkName] at h
  split at h
  · rename_i c rest hprefix
    split at h
    · cases h
      rw [List.isPrefixOf?_eq_some_iff_append_eq] at hprefix
      have hcut : trimLeft rest <:+ c :: rest :=
        (List.dropWhile_suffix _).trans (List.suffix_cons ..)
      exact hcut.trans ⟨name, hprefix⟩
    · cases h
  · cases h

/-- A parenthesised part ends before the tag does, or there is none. -/
lemma parenthesised_append {u : Text} (h : closesParentheses u = true) :
    (∀ s, parenthesised (u ++ .char '}' :: s) = none) ∨
      ∃ part rest, rest <:+ u ∧ ∀ s, parenthesised (u ++ s) = some (part, rest ++ s) := by
  cases u with
  | nil => exact .inl fun s => rfl
  | cons c u =>
    by_cases hc : c = '('
    · subst hc
      simp only [closesParentheses, Bool.and_eq_true, bne_self_eq_false, Bool.false_or,
        List.contains_iff_mem] at h
      obtain ⟨a, b, hu, hcut⟩ := cutAt_append h.1
      refine .inr ⟨"(" ++ a ++ ")", b, ⟨.char '(' :: (a ++ [.char ')']), by rw [hu]; simp⟩,
        fun s => ?_⟩
      rw [List.cons_append, parenthesised, hcut]
    · left
      intro s
      rw [List.cons_append, parenthesised]
      rintro cs hcs
      exact hc (List.cons.inj hcs).1

/-- What follows the name of a link tag is a link or none, whatever comes after the tag. -/
lemma linkContent_append {u : Text} (hopen : (.char '{' : CodePoint) ∉ u)
    (hclose : (.char '}' : CodePoint) ∉ u) (hparens : closesParentheses u = true) :
    ∃ o : Option InlineLink, ∀ s, linkContent (u ++ .char '}' :: s) = o.map (·, s) := by
  have hbrace : isTargetChar '}' = false := by decide
  have hafter : u.dropWhile isTargetChar <:+ u := List.dropWhile_suffix _
  have hclosed {v : Text} (hv : v <:+ u) (s : Text) :
      untilClose (v ++ .char '}' :: s) = some (v, s) :=
    untilClose_append (mt (hv.subset ·) hopen) (mt (hv.subset ·) hclose) s
  simp only [linkContent, takeWhile_append_seam hbrace, dropWhile_append_seam hbrace]
  by_cases htarget : (u.takeWhile isTargetChar).isEmpty = true
  · exact ⟨none, fun s => if_pos htarget⟩
  · simp only [if_neg htarget, hclosed hafter]
    rcases parenthesised_append (closesParentheses_of_suffix hafter hparens) with
      hnone | ⟨part, rest, hrest, hsome⟩
    · refine ⟨some ⟨u.takeWhile isTargetChar, trim (u.dropWhile isTargetChar)⟩, fun s => ?_⟩
      rw [hnone]
      rfl
    · refine ⟨some ⟨u.takeWhile isTargetChar ++ part, trim rest⟩, fun s => ?_⟩
      rw [hsome, Option.bind_some, hclosed (hrest.trans hafter)]
      rfl

/-- Whether there is a link at a tag does not depend on what comes after the tag. -/
lemma inlineLink_text (t : WrittenTag) :
    ∃ o : Option InlineLink, ∀ s, inlineLink (t.text ++ s) = o.map (·, s) := by
  have hstart (s : Text) : tagOpening.isPrefixOf? (t.text ++ s) =
      some (t.name ++ t.content ++ .char '}' :: s) := by
    rw [List.isPrefixOf?_eq_some_iff_append_eq, t.text_append]
  have hlink : (.char '}' : CodePoint) ∉ ("link" : Text) := by decide
  have hplain : (.char '}' : CodePoint) ∉ ("linkplain" : Text) := by decide
  simp only [inlineLink, hstart, Option.bind_some, afterLinkName_append hlink,
    afterLinkName_append hplain, ← Option.map_or]
  cases hname : (afterLinkName "link" (t.name ++ t.content)).or
      (afterLinkName "linkplain" (t.name ++ t.content)) with
  | none => exact ⟨none, fun s => rfl⟩
  | some u =>
    have hsuffix : u <:+ t.name ++ t.content := by
      rcases Option.or_eq_some_iff.1 hname with h | ⟨-, h⟩
      · exact suffix_of_afterLinkName h
      · exact suffix_of_afterLinkName h
    have hmem {c : CodePoint} (hc : c ∉ t.inside) : c ∉ u := fun h =>
      hc (List.mem_cons_of_mem _ (hsuffix.subset h))
    have hparens : (.char '(' : CodePoint) ∉ t.name := fun h =>
      absurd (t.isWord_of_mem _ h) (by decide)
    have hcloses := closesParentheses_append hparens t.content
    rw [t.closes] at hcloses
    exact linkContent_append (hmem t.opening_notMem_inside) (hmem t.closing_notMem_inside)
      (closesParentheses_of_suffix hsuffix hcloses)

/-! ### The links of a tagged text -/

lemma inlineLinks_nil : inlineLinks [] = [] := rfl

lemma inlineLinks_cons_of_none {c : CodePoint} {s : Text} (h : inlineLink (c :: s) = none) :
    inlineLinks (c :: s) = inlineLinks s := by
  rw [inlineLinks, allMatches, scan_cons_of_none h]
  rfl

lemma inlineLinks_append_of_notMem {s : Text} (h : (.char '{' : CodePoint) ∉ s) (t : Text) :
    inlineLinks (s ++ t) = inlineLinks t := by
  induction s with
  | nil => rfl
  | cons c s ih =>
    obtain ⟨hc, hs⟩ := not_or.1 (mt List.mem_cons.2 h)
    rw [List.cons_append, inlineLinks_cons_of_none (inlineLink_of_ne (Ne.symm hc) _), ih hs]

/-- A tag is a link or none, and the links after it stay as they are. -/
lemma inlineLinks_text_append (t : WrittenTag) (s : Text) :
    inlineLinks (t.text ++ s) = inlineLinks t.text ++ inlineLinks s := by
  obtain ⟨o, ho⟩ := inlineLink_text t
  have hlinks (u : Text) : inlineLinks (t.text ++ u) = o.toList ++ inlineLinks u := by
    cases o with
    | none =>
      -- the opening brace begins no link, and there is no other one in the tag
      exact (inlineLinks_cons_of_none (ho u)).trans
        (inlineLinks_append_of_notMem t.opening_notMem_rest u)
    | some l =>
      rw [inlineLinks, allMatches, scan_append_of_some t.text_ne_nil (ho u)]
      rfl
  have hself := hlinks []
  rw [List.append_nil, inlineLinks_nil, List.append_nil] at hself
  rw [hlinks, hself]

namespace Tagged

/-- The links of a tagged text with another text after it are those of the one, then those of the
other. -/
theorem inlineLinks_append {s : Text} (hs : Tagged s) (t : Text) :
    inlineLinks (s ++ t) = inlineLinks s ++ inlineLinks t := by
  induction hs with
  | nil => rfl
  | point hopen _ _ ih =>
    rw [List.cons_append, inlineLinks_cons_of_none (inlineLink_of_ne hopen _), ih,
      inlineLinks_cons_of_none (inlineLink_of_ne hopen _)]
  | tag w _ ih =>
    rw [List.append_assoc, inlineLinks_text_append, ih, inlineLinks_text_append, List.append_assoc]

/-! ### Trimming -/

lemma trimLeft {s : Text} (h : Tagged s) : Tagged (trimLeft s) := by
  induction h with
  | nil => exact .nil
  | @point c s hopen hclose hs ih =>
    rw [Text.trimLeft, List.dropWhile_cons]
    split
    · exact ih
    · exact hs.point hopen hclose
  | @tag t s hs ih =>
    rw [t.text_append_eq, List.cons_append, Text.trimLeft, List.dropWhile_cons_of_neg (by decide),
      ← List.cons_append, ← t.text_append_eq]
    exact hs.tag t

lemma trimRight {s : Text} (h : Tagged s) : Tagged (trimRight s) := by
  induction h with
  | nil => exact .nil
  | @point c s hopen hclose hs ih =>
    by_cases hc : isBlank c = true
    · rcases trimRight_cons_of_isBlank hc s with hnil | hcons
      · rw [hnil]
        exact .nil
      · rw [hcons]
        exact ih.point hopen hclose
    · rw [← List.nil_append (c :: s), trimRight_append_seam (by simpa using hc)]
      exact ih.point hopen hclose
  | @tag t s hs ih =>
    rw [t.text_append_eq, trimRight_append_seam (by decide), ← t.text_append_eq]
    exact ih.tag t

lemma trim {s : Text} (h : Tagged s) : Tagged (trim s) := h.trimLeft.trimRight

/-! ### Splitting at a tag -/

lemma of_text (t : WrittenTag) : Tagged t.text := by
  have h := Tagged.nil.tag t
  rwa [List.append_nil] at h

lemma not_isPrefix_text_append {t u : WrittenTag} (h : u.text ≠ t.text) (s : Text) :
    ¬ t.text <+: u.text ++ s := by
  intro hp
  rw [u.text_append_eq, WrittenTag.text, ← List.cons_append] at hp
  have hinside := eq_of_isPrefix_seam (by simp [t.closing_notMem_inside])
    (by simp [u.closing_notMem_inside]) hp
  rw [WrittenTag.text, WrittenTag.text, (List.cons.inj hinside).2] at h
  exact h rfl

/-- Splitting at a tag goes over another tag. -/
lemma splitOnWord_text_append {t u : WrittenTag} (h : u.text ≠ t.text) (s : Text) :
    splitOnWord t.text (u.text ++ s) = (splitOnWord t.text s).modifyHead (u.text ++ ·) := by
  let rest : Text := u.inside ++ [.char '}']
  obtain ⟨w, ws, hw⟩ := List.exists_cons_of_ne_nil (splitOnWord_ne_nil t.text s)
  have hrest : splitOnWord t.text (rest ++ s) = (splitOnWord t.text s).modifyHead (rest ++ ·) :=
    splitOnWord_append_of_notMem _ u.opening_notMem_rest s
  calc splitOnWord t.text (u.text ++ s)
    _ = (splitOnWord t.text (rest ++ s)).modifyHead (.char '{' :: ·) :=
        splitOnWord_cons (not_isPrefix_text_append h s)
    _ = (splitOnWord t.text s).modifyHead (u.text ++ ·) := by
        rw [hrest, hw]
        rfl

/-- Pieces of a text are tagged and have its links between them. -/
def Pieces (s : Text) (ws : List Text) : Prop :=
  (∀ w ∈ ws, Tagged w) ∧ ws.flatMap inlineLinks = inlineLinks s

lemma Pieces.modifyHead {p s : Text} {ws : List Text} (hp : Tagged p) (hne : ws ≠ [])
    (h : Pieces s ws) : Pieces (p ++ s) (ws.modifyHead (p ++ ·)) := by
  obtain ⟨w, ws, rfl⟩ := List.exists_cons_of_ne_nil hne
  obtain ⟨htagged, hlinks⟩ := h
  rw [List.forall_mem_cons] at htagged
  rw [List.modifyHead_cons]
  refine ⟨List.forall_mem_cons.2 ⟨hp.append htagged.1, htagged.2⟩, ?_⟩
  rw [List.flatMap_cons, hp.inlineLinks_append, List.append_assoc, ← List.flatMap_cons, hlinks,
    hp.inlineLinks_append]

/-- Splitting a tagged text at a tag without a link leaves tagged pieces with the same links. -/
theorem pieces_splitOnWord {t : WrittenTag} (ht : inlineLinks t.text = []) {s : Text}
    (h : Tagged s) : Pieces s (splitOnWord t.text s) := by
  induction h with
  | nil => exact ⟨by simp [splitOnWord, splitOnWordFrom, Tagged.nil], rfl⟩
  | @point c s hopen hclose hs ih =>
    have hstart : ¬ t.text <+: c :: s := fun hp => hopen (List.cons_prefix_cons.1 hp).1.symm
    rw [splitOnWord_cons hstart]
    exact ih.modifyHead (Tagged.nil.point hopen hclose) (splitOnWord_ne_nil _ _)
  | @tag u s hs ih =>
    by_cases hu : u.text = t.text
    · rw [hu, splitOnWord_append t.text_ne_nil]
      refine ⟨List.forall_mem_cons.2 ⟨.nil, ih.1⟩, ?_⟩
      rw [List.flatMap_cons, ih.2, inlineLinks_text_append, ht, inlineLinks_nil]
    · rw [splitOnWord_text_append hu]
      exact ih.modifyHead (of_text u) (splitOnWord_ne_nil _ _)

end Tagged

end ApiDocs.Comment
