import ApiDocs.Proofs.Scanning

/-!
# Inline tags and links as they are written

A text begins with an inline tag exactly if one is written there, and the same goes for links. A
link may be read with a parenthesised part or with the parenthesis in its label; where it can be
read with the part, it is. Both recognisers are local, since what they look at is written in the
match.
-/

namespace ApiDocs.Comment

open Text

/-! ### Tags -/

lemma eq_of_untilClose {s u rest : Text} (h : untilClose s = some (u, rest)) :
    s = u ++ .char '}' :: rest ∧ (.char '{' : CodePoint) ∉ u ∧ (.char '}' : CodePoint) ∉ u := by
  induction s generalizing u with
  | nil => cases h
  | cons c s ih =>
    rw [untilClose] at h
    split at h
    · rename_i hc
      cases h
      exact ⟨by rw [hc]; rfl, List.not_mem_nil, List.not_mem_nil⟩
    · rename_i hclose
      split at h
      · cases h
      · rename_i hopen
        obtain ⟨⟨v, r⟩, hv, heq⟩ := Option.map_eq_some_iff.1 h
        cases heq
        obtain ⟨hs, hv, hv'⟩ := ih hv
        refine ⟨by rw [hs]; rfl, ?_, ?_⟩
        · exact fun hmem => (List.mem_cons.1 hmem).elim (fun he => hopen he.symm) hv
        · exact fun hmem => (List.mem_cons.1 hmem).elim (fun he => hclose he.symm) hv'

/-- What is recognised as a tag is written like one, up to its parentheses. -/
lemma exists_content_of_inlineTag {s rest : Text} {a : InlineTag}
    (h : inlineTag s = some (a, rest)) :
    ∃ content : Text, s = tagOpening ++ (a.name ++ content ++ .char '}' :: rest) ∧ a.name ≠ [] ∧
      (∀ c ∈ a.name, isWord c = true) ∧ (∀ c ∈ content.head?, isBlank c = true) ∧
      (.char '{' : CodePoint) ∉ content ∧ (.char '}' : CodePoint) ∉ content := by
  rw [inlineTag, Option.bind_eq_some_iff] at h
  obtain ⟨after, hafter, htag⟩ := h
  obtain rfl := List.isPrefixOf?_eq_some_iff_append_eq.1 hafter
  simp only at htag
  split at htag
  · cases htag
  · rename_i hname
    have hne : after.takeWhile isWord ≠ [] := by simpa using hname
    have hword : ∀ c ∈ after.takeWhile isWord, isWord c = true := fun c hc =>
      List.mem_takeWhile_imp hc
    have hcut : after = after.takeWhile isWord ++ after.dropWhile isWord :=
      (List.takeWhile_append_dropWhile ..).symm
    split at htag
    · rename_i r hdrop
      cases htag
      refine ⟨[], ?_, hne, hword, by simp, List.not_mem_nil, List.not_mem_nil⟩
      rw [List.append_nil, ← hdrop, ← hcut]
    · rename_i c r hc hdrop
      split at htag
      · rename_i hblank
        obtain ⟨⟨u, r'⟩, hu, heq⟩ := Option.map_eq_some_iff.1 htag
        cases heq
        obtain ⟨hr, hopen, hclose⟩ := eq_of_untilClose hu
        obtain ⟨blanks, hb, hblanks⟩ := exists_append_trimLeft r
        have hno {b : CodePoint} (hb' : isBlank b = false) (hbu : b ∉ u) :
            b ∉ c :: blanks ++ u := by
          have hcb : b ≠ c := (ne_of_isBlank hblank hb').symm
          have hbb : b ∉ blanks := fun hmem => ne_of_isBlank (hb b hmem) hb' rfl
          simp [hcb, hbb, hbu]
        refine ⟨c :: blanks ++ u, ?_, hne, hword, ?_, hno (by decide) hopen, hno (by decide) hclose⟩
        · rw [hr] at hblanks
          conv_lhs => rw [hcut, hdrop, hblanks]
          simp
        · rintro _ ⟨⟩
          exact hblank
      · cases htag
    · cases htag

/-- More text after a tag changes nothing. -/
lemma inlineTag_append {s r : Text} {a : InlineTag} (h : inlineTag s = some (a, r)) (t : Text) :
    inlineTag (s ++ t) = some (a, r ++ t) := by
  obtain ⟨content, rfl, hne, hword, hblank, hopen, hclose⟩ := exists_content_of_inlineTag h
  rw [inlineTag_written hne hword hblank hopen hclose] at h
  obtain ⟨ha, -⟩ := Prod.mk.inj (Option.some.inj h)
  have hmore := inlineTag_written hne hword hblank hopen hclose (r ++ t)
  rw [ha] at hmore
  simpa using hmore

theorem isLocal_inlineTag : IsLocal inlineTag where
  consumes {s r a} h := by
    obtain ⟨content, hs, -⟩ := exists_content_of_inlineTag h
    exact ⟨tagOpening ++ (a.name ++ content ++ [.char '}']), by simp, by simp [hs]⟩
  persists t h := by rw [inlineTag_append h, Option.isSome_some]
  restricts {s t r a} h := by
    obtain ⟨content, hs, hne, hword, hblank, hopen, hclose⟩ := exists_content_of_inlineTag h
    have hinside : s = tagOpening ++ (a.name ++ content ++ .char '}' :: r) := by
      apply (List.append_left_inj t).1
      rw [hs]
      simp
    rw [hs, inlineTag_written hne hword hblank hopen hclose] at h
    rw [hinside, inlineTag_written hne hword hblank hopen hclose,
      (Prod.mk.inj (Option.some.inj h)).1]

/-- A tag begins with an opening brace and ends with a closing one, and has no other brace. -/
lemma exists_inside_of_inlineTag {s r : Text} {a : InlineTag} (h : inlineTag s = some (a, r)) :
    ∃ inside : Text, s = .char '{' :: (inside ++ .char '}' :: r) ∧
      (.char '{' : CodePoint) ∉ inside ∧ (.char '}' : CodePoint) ∉ inside := by
  obtain ⟨content, hs, -, hword, -, hopen, hclose⟩ := exists_content_of_inlineTag h
  have hname {b : CodePoint} (hb : isWord b = false) : b ∉ a.name := fun hmem => by
    rw [hword b hmem] at hb
    cases hb
  refine ⟨.char '@' :: (a.name ++ content), ?_, ?_, ?_⟩
  · simp [hs, tagOpening, ofString, ofChars]
  · simp [hname (by decide : isWord '{' = false), hopen]
  · simp [hname (by decide : isWord '}' = false), hclose]

/-! ### Links -/

/-- What follows the name in a link tag, as it is written: a target, perhaps with a parenthesised
part, and a label. -/
structure WrittenLink where
  target : Text
  /-- What stands between the parentheses. -/
  part : Option Text
  label : Text
  target_ne_nil : target ≠ []
  isTargetChar_of_mem : ∀ c ∈ target, isTargetChar c = true
  no_closing_of_part : ∀ inside ∈ part, (.char ')' : CodePoint) ∉ inside
  label_head : part = none → ∀ c ∈ label.head?, isTargetChar c = false
  no_opening : (.char '{' : CodePoint) ∉ label
  no_closing : (.char '}' : CodePoint) ∉ label

namespace WrittenLink

variable (w : WrittenLink)

/-- The parenthesised part with its parentheses. -/
def partText : Text :=
  match w.part with
  | none => []
  | some inside => .char '(' :: (inside ++ [.char ')'])

/-- The text of a link from its target on, with the brace that closes it. -/
def text : Text := w.target ++ (w.partText ++ w.label ++ [.char '}'])

def link : InlineLink := ⟨w.target ++ w.partText, trim w.label⟩

lemma text_append (s : Text) :
    w.text ++ s = w.target ++ (w.partText ++ (w.label ++ .char '}' :: s)) := by
  simp [text]

/-- The target ends where the part, the label or the closing brace begins. -/
lemma target_cut (s : Text) : (w.text ++ s).takeWhile isTargetChar = w.target ∧
    (w.text ++ s).dropWhile isTargetChar = w.partText ++ (w.label ++ .char '}' :: s) := by
  obtain ⟨d, rest, hrest, hd⟩ : ∃ d rest, w.partText ++ (w.label ++ .char '}' :: s) = d :: rest ∧
      isTargetChar d = false := by
    cases hpart : w.part with
    | some inside => exact ⟨_, _, by rw [partText, hpart, List.cons_append], rfl⟩
    | none =>
      rw [partText, hpart, List.nil_append]
      cases hlabel : w.label with
      | nil => exact ⟨_, s, rfl, rfl⟩
      | cons c label => exact ⟨c, _, rfl, w.label_head hpart c (by rw [hlabel]; rfl)⟩
  rw [w.text_append, hrest, takeWhile_append_seam hd, dropWhile_append_seam hd,
    List.takeWhile_eq_self_iff.2 w.isTargetChar_of_mem,
    List.dropWhile_eq_nil_iff.2 w.isTargetChar_of_mem]
  exact ⟨rfl, rfl⟩

lemma untilClose_label (s : Text) :
    untilClose (w.label ++ .char '}' :: s) = some (w.label, s) :=
  untilClose_append w.no_opening w.no_closing s

lemma parenthesised_partText {inside : Text} (hpart : w.part = some inside) (s : Text) :
    parenthesised (w.partText ++ s) = some (w.partText, s) := by
  have htext : w.partText ++ s = .char '(' :: (inside ++ .char ')' :: s) := by
    simp [partText, hpart]
  rw [htext, parenthesised, cutAt_append_seam (w.no_closing_of_part inside hpart), partText, hpart]
  simp [ofString, ofChars]

end WrittenLink

lemma eq_of_parenthesised {s part rest : Text} (h : parenthesised s = some (part, rest)) :
    ∃ inside, part = .char '(' :: (inside ++ [.char ')']) ∧ s = part ++ rest ∧
      (.char ')' : CodePoint) ∉ inside := by
  unfold parenthesised at h
  split at h
  · rename_i cs
    split at h
    · rename_i inside after hcut
      obtain ⟨hpart, rfl⟩ := Prod.mk.inj (Option.some.inj h)
      obtain ⟨hcs, hinside⟩ := eq_of_cutAt hcut
      refine ⟨inside, by simp [← hpart, ofString, ofChars], ?_, hinside⟩
      simp [← hpart, hcs, ofString, ofChars]
    · cases h
  · cases h

/-- The reading of a link with a parenthesised part. -/
def linkWithPart : Recogniser InlineLink := fun s =>
  (parenthesised (s.dropWhile isTargetChar)).bind fun p =>
    (untilClose p.2).map fun u => (⟨s.takeWhile isTargetChar ++ p.1, trim u.1⟩, u.2)

/-- The reading of a link where any parenthesis belongs to the label. -/
def linkWithoutPart : Recogniser InlineLink := fun s =>
  (untilClose (s.dropWhile isTargetChar)).map fun u =>
    (⟨s.takeWhile isTargetChar, trim u.1⟩, u.2)

lemma linkContent_eq (s : Text) : linkContent s =
    if s.takeWhile isTargetChar = [] then none else (linkWithPart s).or (linkWithoutPart s) := by
  rw [linkContent]
  simp only [List.isEmpty_iff]
  rfl

section

variable {s r : Text} {l : InlineLink} (hne : s.takeWhile isTargetChar ≠ [])

include hne

lemma exists_written_of_linkWithPart (h : linkWithPart s = some (l, r)) :
    ∃ w : WrittenLink, w.part ≠ none ∧ s = w.text ++ r ∧ l = w.link := by
  obtain ⟨⟨part, after⟩, hpart, hclosed⟩ := Option.bind_eq_some_iff.1 h
  obtain ⟨⟨label, r'⟩, hlabel, heq⟩ := Option.map_eq_some_iff.1 hclosed
  cases heq
  obtain ⟨inside, rfl, hdrop, hinside⟩ := eq_of_parenthesised hpart
  obtain ⟨hafter, hopen, hclose⟩ := eq_of_untilClose hlabel
  let w : WrittenLink := ⟨s.takeWhile isTargetChar, some inside, label, hne,
    fun c hc => List.mem_takeWhile_imp hc, by simpa using hinside, by simp, hopen, hclose⟩
  refine ⟨w, by simp [w], ?_, rfl⟩
  rw [w.text_append, ← hafter]
  exact (List.takeWhile_append_dropWhile ..).symm.trans (congrArg _ hdrop)

lemma exists_written_of_linkWithoutPart (h : linkWithoutPart s = some (l, r)) :
    ∃ w : WrittenLink, w.part = none ∧ s = w.text ++ r ∧ l = w.link := by
  obtain ⟨⟨label, r'⟩, hlabel, heq⟩ := Option.map_eq_some_iff.1 h
  cases heq
  obtain ⟨hafter, hopen, hclose⟩ := eq_of_untilClose hlabel
  have hhead : ∀ c ∈ label.head?, isTargetChar c = false := by
    intro c hc
    apply not_of_head?_dropWhile (t := s)
    rw [hafter, List.head?_append, Option.mem_def.1 hc, Option.some_or]
  let w : WrittenLink := ⟨s.takeWhile isTargetChar, none, label, hne,
    fun c hc => List.mem_takeWhile_imp hc, by simp, fun _ => hhead, hopen, hclose⟩
  refine ⟨w, rfl, ?_, by simp [w, WrittenLink.link, WrittenLink.partText]⟩
  rw [w.text_append]
  exact (List.takeWhile_append_dropWhile ..).symm.trans (congrArg _ hafter)

end

lemma linkWithPart_text {w : WrittenLink} (hpart : w.part ≠ none) (s : Text) :
    linkWithPart (w.text ++ s) = some (w.link, s) := by
  obtain ⟨inside, hinside⟩ := Option.ne_none_iff_exists'.1 hpart
  obtain ⟨htarget, hafter⟩ := w.target_cut s
  simp [linkWithPart, htarget, hafter, w.parenthesised_partText hinside, w.untilClose_label,
    WrittenLink.link]

lemma linkWithoutPart_text {w : WrittenLink} (hpart : w.part = none) (s : Text) :
    linkWithoutPart (w.text ++ s) = some (w.link, s) := by
  obtain ⟨htarget, hafter⟩ := w.target_cut s
  simp [linkWithoutPart, htarget, hafter, WrittenLink.partText, hpart, w.untilClose_label,
    WrittenLink.link]

/-- What is recognised is written as a link. It has no parenthesised part only where no link with
such a part is written. -/
lemma linkContent_eq_some_iff {s r : Text} {l : InlineLink} :
    linkContent s = some (l, r) ↔ ∃ w : WrittenLink, s = w.text ++ r ∧ l = w.link ∧
      (w.part = none → ∀ w' : WrittenLink, w'.part ≠ none → ¬ w'.text <+: s) := by
  rw [linkContent_eq]
  constructor
  · intro h
    split at h
    · cases h
    · rename_i hne
      rcases Option.or_eq_some_iff.1 h with h | ⟨hnone, h⟩
      · obtain ⟨w, hpart, hs, hl⟩ := exists_written_of_linkWithPart hne h
        exact ⟨w, hs, hl, fun hnone => absurd hnone hpart⟩
      · obtain ⟨w, -, hs, hl⟩ := exists_written_of_linkWithoutPart hne h
        refine ⟨w, hs, hl, ?_⟩
        rintro - w' hpart ⟨t, rfl⟩
        rw [linkWithPart_text hpart] at hnone
        cases hnone
  · rintro ⟨w, rfl, rfl, hnone⟩
    have hne : (w.text ++ r).takeWhile isTargetChar ≠ [] := by
      rw [(w.target_cut r).1]
      exact w.target_ne_nil
    rw [if_neg hne]
    by_cases hpart : w.part = none
    · have hclosed : linkWithPart (w.text ++ r) = none := by
        rw [Option.eq_none_iff_forall_ne_some]
        rintro ⟨l, r'⟩ h
        obtain ⟨w', hpart', hs, -⟩ := exists_written_of_linkWithPart hne h
        exact hnone hpart w' hpart' ⟨r', hs.symm⟩
      rw [hclosed, Option.none_or, linkWithoutPart_text hpart]
    · rw [linkWithPart_text hpart, Option.some_or]

/-- A text that begins with a written link begins with a link, which may be longer. -/
lemma linkContent_isSome (w : WrittenLink) (s : Text) :
    (linkContent (w.text ++ s)).isSome = true := by
  have hne : (w.text ++ s).takeWhile isTargetChar ≠ [] := by
    rw [(w.target_cut s).1]
    exact w.target_ne_nil
  rw [linkContent_eq, if_neg hne, Option.isSome_or, Bool.or_eq_true]
  by_cases hpart : w.part = none
  · exact .inr (by rw [linkWithoutPart_text hpart, Option.isSome_some])
  · exact .inl (by rw [linkWithPart_text hpart, Option.isSome_some])

theorem isLocal_linkContent : IsLocal linkContent where
  consumes {s r l} h := by
    obtain ⟨w, hs, -, -⟩ := linkContent_eq_some_iff.1 h
    exact ⟨w.text, by simp [WrittenLink.text], hs⟩
  persists {s l r} t h := by
    obtain ⟨w, hs, -, -⟩ := linkContent_eq_some_iff.1 h
    rw [hs, List.append_assoc]
    exact linkContent_isSome w (r ++ t)
  restricts {s t r l} h := by
    obtain ⟨w, hs, hl, hnone⟩ := linkContent_eq_some_iff.1 h
    rw [← List.append_assoc] at hs
    refine linkContent_eq_some_iff.2
      ⟨w, List.append_cancel_right hs, hl, fun hpart w' hpart' hw' => ?_⟩
    exact hnone hpart w' hpart' (hw'.trans (List.prefix_append ..))

/-! ### Link tags -/

lemma exists_gap_of_afterLinkName {name s u : Text} (h : afterLinkName name s = some u) :
    ∃ gap, gap ≠ [] ∧ (∀ c ∈ gap, isBlank c = true) ∧ s = name ++ (gap ++ u) := by
  rw [afterLinkName] at h
  split at h
  · rename_i c rest hprefix
    split at h
    · rename_i hc
      cases h
      obtain ⟨blanks, hblanks, hrest⟩ := exists_append_trimLeft rest
      refine ⟨c :: blanks, List.cons_ne_nil _ _, List.forall_mem_cons.2 ⟨hc, hblanks⟩, ?_⟩
      rw [List.cons_append, ← hrest]
      exact (List.isPrefixOf?_eq_some_iff_append_eq.1 hprefix).symm
    · cases h
  · cases h

lemma afterLinkName_append_gap (name : Text) {gap u : Text} (hne : gap ≠ [])
    (hgap : ∀ c ∈ gap, isBlank c = true) (hu : ∀ c ∈ u.head?, isBlank c = false) :
    afterLinkName name (name ++ (gap ++ u)) = some u := by
  obtain ⟨c, blanks, rfl⟩ := List.exists_cons_of_ne_nil hne
  obtain ⟨hc, hblanks⟩ := List.forall_mem_cons.1 hgap
  have hprefix : name.isPrefixOf? (name ++ (c :: blanks ++ u)) = some (c :: (blanks ++ u)) :=
    List.isPrefixOf?_eq_some_iff_append_eq.2 rfl
  have hleft : trimLeft (blanks ++ u) = u := by
    rw [trimLeft, List.dropWhile_append_of_pos hblanks]
    cases u with
    | nil => rfl
    | cons d u => exact List.dropWhile_cons_of_neg (by simpa using hu d rfl)
  rw [afterLinkName, hprefix]
  simp [hc, hleft]

/-- After the name of a link tag and white space, the link is what is recognised from there on. -/
lemma inlineLink_append_gap {name gap u : Text} (hname : name = "link" ∨ name = "linkplain")
    (hne : gap ≠ []) (hgap : ∀ c ∈ gap, isBlank c = true) (hu : ∀ c ∈ u.head?, isBlank c = false) :
    inlineLink (tagOpening ++ (name ++ (gap ++ u))) = linkContent u := by
  have hself := afterLinkName_append_gap name hne hgap hu
  have hstart : tagOpening.isPrefixOf? (tagOpening ++ (name ++ (gap ++ u))) =
      some (name ++ (gap ++ u)) := List.isPrefixOf?_eq_some_iff_append_eq.2 rfl
  rw [inlineLink, hstart, Option.bind_some]
  rcases hname with rfl | rfl
  · rw [hself, Option.some_or, Option.bind_some]
  · -- after the letters of the shorter name there is no white space
    have hshort : afterLinkName "link" ("linkplain" ++ (gap ++ u)) = none := rfl
    rw [hshort, Option.none_or, hself, Option.bind_some]

/-- What is recognised as a link is a link tag: its name, white space, and what follows. -/
lemma inlineLink_eq_some_iff {s r : Text} {l : InlineLink} :
    inlineLink s = some (l, r) ↔ ∃ name gap rest : Text,
      (name = "link" ∨ name = "linkplain") ∧ gap ≠ [] ∧ (∀ c ∈ gap, isBlank c = true) ∧
        s = tagOpening ++ (name ++ (gap ++ rest)) ∧ linkContent rest = some (l, r) := by
  constructor
  · intro h
    obtain ⟨after, hafter, hnamed⟩ := Option.bind_eq_some_iff.1 h
    obtain rfl := List.isPrefixOf?_eq_some_iff_append_eq.1 hafter
    obtain ⟨rest, hrest, hl⟩ := Option.bind_eq_some_iff.1 hnamed
    rcases Option.or_eq_some_iff.1 hrest with hname | ⟨-, hname⟩
    · obtain ⟨gap, hne, hgap, rfl⟩ := exists_gap_of_afterLinkName hname
      exact ⟨"link", gap, rest, .inl rfl, hne, hgap, rfl, hl⟩
    · obtain ⟨gap, hne, hgap, rfl⟩ := exists_gap_of_afterLinkName hname
      exact ⟨"linkplain", gap, rest, .inr rfl, hne, hgap, rfl, hl⟩
  · rintro ⟨name, gap, rest, hname, hne, hgap, rfl, hl⟩
    have hhead : ∀ c ∈ rest.head?, isBlank c = false := by
      obtain ⟨w, rfl, -, -⟩ := linkContent_eq_some_iff.1 hl
      intro c hc
      rw [w.text_append, List.head?_append_of_ne_nil _ w.target_ne_nil] at hc
      have htarget := w.isTargetChar_of_mem c (List.mem_of_mem_head? hc)
      simp only [isTargetChar, Bool.and_eq_true, Bool.not_eq_true'] at htarget
      exact htarget.1.1.1
    rw [inlineLink_append_gap hname hne hgap hhead, hl]

theorem isLocal_inlineLink : IsLocal inlineLink where
  consumes {s r l} h := by
    obtain ⟨name, gap, rest, -, -, -, rfl, hl⟩ := inlineLink_eq_some_iff.1 h
    obtain ⟨w, -, rfl⟩ := isLocal_linkContent.consumes hl
    exact ⟨tagOpening ++ (name ++ (gap ++ w)), by simp [tagOpening, ofString, ofChars], by simp⟩
  persists {s l r} t h := by
    obtain ⟨name, gap, rest, hname, hne, hgap, rfl, hl⟩ := inlineLink_eq_some_iff.1 h
    obtain ⟨⟨l', r'⟩, hl'⟩ := Option.isSome_iff_exists.1 (isLocal_linkContent.persists t hl)
    rw [inlineLink_eq_some_iff.2 ⟨name, gap, rest ++ t, hname, hne, hgap, by simp, hl'⟩]
    rfl
  restricts {s t r l} h := by
    obtain ⟨name, gap, rest, hname, hne, hgap, hs, hl⟩ := inlineLink_eq_some_iff.1 h
    -- the match ends before the rest of the text does
    obtain ⟨w, -, hw⟩ := isLocal_linkContent.consumes hl
    rw [← List.append_assoc] at hw
    rw [hw] at hl
    have hinside : s = tagOpening ++ (name ++ (gap ++ (w ++ r))) := by
      apply (List.append_left_inj t).1
      rw [hs, hw]
      simp
    exact inlineLink_eq_some_iff.2
      ⟨name, gap, w ++ r, hname, hne, hgap, hinside, isLocal_linkContent.restricts hl⟩

/-- Braces stand around a link, and its target stands between them. -/
lemma exists_around_of_inlineLink {s r : Text} {l : InlineLink} (h : inlineLink s = some (l, r)) :
    ∃ before after : Text,
      s = .char '{' :: (before ++ (l.target ++ (after ++ .char '}' :: r))) := by
  obtain ⟨name, gap, rest, -, -, -, rfl, hl⟩ := inlineLink_eq_some_iff.1 h
  obtain ⟨w, rfl, rfl, -⟩ := linkContent_eq_some_iff.1 hl
  exact ⟨.char '@' :: (name ++ gap), w.label, by
    simp [w.text_append, WrittenLink.link, tagOpening, ofString, ofChars]⟩

lemma exists_concat_of_inlineLink {s r : Text} {l : InlineLink} (h : inlineLink s = some (l, r)) :
    ∃ w, s = w ++ .char '}' :: r := by
  obtain ⟨before, after, rfl⟩ := exists_around_of_inlineLink h
  exact ⟨.char '{' :: (before ++ (l.target ++ after)), by simp⟩

lemma exists_concat_of_inlineTag {s r : Text} {a : InlineTag} (h : inlineTag s = some (a, r)) :
    ∃ w, s = w ++ .char '}' :: r := by
  obtain ⟨inside, rfl, -, -⟩ := exists_inside_of_inlineTag h
  exact ⟨.char '{' :: inside, by simp⟩

/-- Where a tag is no link, its code points stand for themselves. -/
lemma scan_inlineLink_of_none {w s : Text} {a : InlineTag} (htag : inlineTag (w ++ s) = some (a, s))
    {t : Text} (ht : inlineLink (w ++ t) = none) :
    scan inlineLink (w ++ t) = w.map .point ++ scan inlineLink t := by
  obtain ⟨inside, hinside, hopen, -⟩ := exists_inside_of_inlineTag htag
  obtain rfl : w = .char '{' :: (inside ++ [.char '}']) := by
    apply (List.append_left_inj s).1
    rw [hinside]
    simp
  have hpoints : ∀ c ∈ inside ++ [.char '}'], ∀ u, inlineLink (c :: u) = none := by
    intro c hc u
    apply inlineLink_of_ne
    rintro rfl
    simp [hopen] at hc
  rw [List.cons_append] at ht ⊢
  rw [scan_cons_of_none ht, scan_append_of_points hpoints]
  rfl

/-! ### White space at the ends -/

namespace IsLocal

variable {α : Type} {find : Recogniser α} (h : IsLocal find)
  (hfirst : ∀ {c : CodePoint}, c ≠ '{' → ∀ s, find (c :: s) = none)
  (hlast : ∀ {s r : Text} {a : α}, find s = some (a, r) → ∃ w, s = w ++ .char '}' :: r)

include h hfirst hlast

/-- White space at the ends of a text has no part in what stands in braces. -/
lemma scan_trim (s : Text) : ∃ before after : Text,
    scan find s = before.map .point ++ (scan find (trim s) ++ after.map .point) := by
  have hpoints {blanks : Text} (hb : ∀ c ∈ blanks, isBlank c = true) :
      ∀ c ∈ blanks, ∀ u, find (c :: u) = none := fun c hc =>
    hfirst (ne_of_isBlank (hb c hc) (by decide))
  obtain ⟨before, hbefore, hleft⟩ := exists_append_trimLeft s
  obtain ⟨after, hafter, hright⟩ := exists_trimRight_append (trimLeft s)
  have hclosing : (.char '}' : CodePoint) ∉ after := fun hmem =>
    ne_of_isBlank (hafter _ hmem) (by decide) rfl
  have hend : scan find after = after.map .point := by
    have hscan := scan_append_of_points (hpoints hafter) []
    rwa [List.append_nil, show scan find [] = [] from rfl, List.append_nil] at hscan
  refine ⟨before, after, ?_⟩
  calc scan find s
    _ = before.map .point ++ scan find (trim s ++ after) := by
        conv_lhs => rw [hleft, scan_append_of_points (hpoints hbefore), hright]
        rfl
    _ = before.map .point ++ (scan find (trim s) ++ after.map .point) := by
        rw [h.scan_append hlast hclosing, hend]

lemma allMatches_trim (s : Text) : allMatches find (trim s) = allMatches find s := by
  obtain ⟨before, after, hscan⟩ := h.scan_trim hfirst hlast s
  rw [allMatches, allMatches, hscan, List.filterMap_append, List.filterMap_append,
    filterMap_match?_points, filterMap_match?_points, List.nil_append, List.append_nil]

end IsLocal

theorem inlineLinks_trim (s : Text) : inlineLinks (trim s) = inlineLinks s :=
  isLocal_inlineLink.allMatches_trim inlineLink_of_ne exists_concat_of_inlineLink s

end ApiDocs.Comment
