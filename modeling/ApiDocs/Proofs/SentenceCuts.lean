import ApiDocs.Comment.Mention
import ApiDocs.Comment.Sentence
import ApiDocs.Proofs.TagForms
import Mathlib.Data.List.Infix
import Mathlib.Order.Bounds.Basic

/-!
# Where the first sentence ends

The summary of a comment is cut off at the first place where a sentence ends or a block begins, and
nothing but white space is lost there. The place is between the pieces of a scan for inline tags, so
the cut goes through no tag; nor does it go through a link, as long as links hold no braces.
-/

namespace ApiDocs.Comment

open Text

/-! ### Places -/

/-- A sentence ends at a place: before it there is a period outside of inline tags, and after it
there is white space or nothing. -/
def SentenceEnds (s : Text) (k : Nat) : Prop :=
  ∃ ps qs, scan inlineTag s = ps ++ .point '.' :: qs ∧
    k = (ps.flatMap Piece.covers).length + 1 ∧ ∀ c ∈ (s.drop k).head?, isBlank c = true

/-- A block begins at a place: with the inline tags masked, an HTML tag stands there that opens
one. -/
def BlockBegins (s : Text) (k : Nat) : Prop := startsBlock ((maskTags s).drop k) = true

/-! ### Masks -/

/-- What a piece becomes in the masked text. -/
def Piece.mask : Piece InlineTag → Text
  | point c => [c]
  | hit _ covered => covered.map fun _ => .char 'x'

lemma maskTags_eq (s : Text) : maskTags s = (scan inlineTag s).flatMap Piece.mask := rfl

lemma length_flatMap_mask (ps : List (Piece InlineTag)) :
    (ps.flatMap Piece.mask).length = (ps.flatMap Piece.covers).length := by
  induction ps with
  | nil => rfl
  | cons p ps ih => cases p <;> simp [Piece.mask, Piece.covers, ih]

lemma length_maskTags (s : Text) : (maskTags s).length = s.length := by
  rw [maskTags_eq, length_flatMap_mask, covers_scan]

/-- What stands in the masked text apart from the masks stands outside of tags. -/
lemma exists_point_of_maskTags {s : Text} {c : CodePoint} (hc : c ≠ 'x') {k : Nat} {v : Text}
    (h : (maskTags s).drop k = c :: v) :
    ∃ ps qs, scan inlineTag s = ps ++ .point c :: qs ∧ (ps.flatMap Piece.covers).length = k ∧
      qs.flatMap Piece.mask = v := by
  have hk : k ≤ (maskTags s).length := by
    by_contra hlt
    rw [List.drop_eq_nil_of_le (by omega)] at h
    cases h
  have hsplit : (scan inlineTag s).flatMap Piece.mask = (maskTags s).take k ++ c :: v := by
    rw [← maskTags_eq, ← h, List.take_append_drop]
  have hhit : ∀ a w, Piece.hit a w ∈ scan inlineTag s → c ∉ (Piece.hit a w).mask := by
    intro a w _ hmem
    obtain ⟨_, -, rfl⟩ := List.mem_map.1 hmem
    exact hc rfl
  obtain ⟨ps, qs, hs, hps, hqs⟩ := exists_split_of_flatMap (fun _ => rfl) hhit hsplit
  refine ⟨ps, qs, hs, ?_, hqs⟩
  rw [← length_flatMap_mask, hps, List.length_take_of_le hk]

/-- A mask is no white space, and neither is the brace of the tag. -/
lemma isBlank_head_mask_iff {s : Text} {ps qs : List (Piece InlineTag)}
    (h : scan inlineTag s = ps ++ qs) :
    (∀ c ∈ (qs.flatMap Piece.mask).head?, isBlank c = true) ↔
      ∀ c ∈ (qs.flatMap Piece.covers).head?, isBlank c = true := by
  cases qs with
  | nil => rfl
  | cons p qs =>
    cases p with
    | point c => rfl
    | hit a w =>
      obtain ⟨r, hfind⟩ := isLocal_inlineTag.exists_find_of_hit (s := s) (a := a) (w := w)
        (by rw [h]; simp)
      obtain ⟨inside, hinside, -, -⟩ := exists_inside_of_inlineTag hfind
      have hw : w = .char '{' :: (inside ++ [.char '}']) := by
        apply (List.append_left_inj r).1
        rw [hinside]
        simp
      rw [hw]
      simp only [List.flatMap_cons, Piece.mask, Piece.covers, List.map_cons, List.cons_append,
        List.head?_cons, Option.mem_def, Option.some.injEq, forall_eq']
      decide

/-! ### First places -/

section

variable {p : Text → Bool} {s : Text}

lemma isLeast_of_findIdx?_tails {n : Nat} (h : s.tails.findIdx? p = some n) :
    IsLeast {k | p (s.drop k) = true} n := by
  obtain ⟨hn, hp, hfirst⟩ := List.findIdx?_eq_some_iff_getElem.1 h
  rw [List.getElem_tails] at hp
  refine ⟨hp, fun k hk => ?_⟩
  by_contra hlt
  have hbefore := hfirst k (Nat.lt_of_not_le hlt)
  rw [List.getElem_tails] at hbefore
  exact hbefore hk

lemma not_of_findIdx?_tails (h : s.tails.findIdx? p = none) (k : Nat) : ¬ p (s.drop k) = true := by
  rw [List.findIdx?_eq_none_iff.1 h _ ((List.mem_tails ..).2 (List.drop_suffix k s))]
  exact Bool.false_ne_true

end

/-- Whether a text begins with a period that ends a sentence. -/
def startsWithEnd : Text → Bool
  | [] => false
  | c :: cs => c = '.' && cs.head?.all isBlank

lemma startsWithEnd_iff {s : Text} : startsWithEnd s = true ↔
    ∃ v, s = .char '.' :: v ∧ ∀ c ∈ v.head?, isBlank c = true := by
  cases s with
  | nil => simp [startsWithEnd]
  | cons c v =>
    rw [startsWithEnd, Bool.and_eq_true, decide_eq_true_eq, Option.all_eq_true]
    constructor
    · rintro ⟨rfl, hblank⟩
      exact ⟨v, rfl, hblank⟩
    · rintro ⟨v, heq, hblank⟩
      obtain ⟨rfl, rfl⟩ := List.cons.inj heq
      exact ⟨rfl, hblank⟩

lemma sentenceEnd?_eq (s : Text) :
    sentenceEnd? s = (s.tails.findIdx? startsWithEnd).map (· + 1) := by
  induction s with
  | nil => rfl
  | cons c s ih =>
    rw [sentenceEnd?, List.tails_cons, List.findIdx?_cons, ih, startsWithEnd]
    cases decide (c = .char '.') && s.head?.all isBlank <;> rfl

lemma blockStart?_eq (s : Text) : blockStart? s = s.tails.findIdx? startsBlock := by
  induction s with
  | nil => rfl
  | cons c s ih => rw [blockStart?, List.tails_cons, List.findIdx?_cons, ih]

/-! ### The place of the cut -/

lemma covers_of_scan_eq {s : Text} {ps qs : List (Piece InlineTag)}
    (h : scan inlineTag s = ps ++ qs) :
    s = ps.flatMap Piece.covers ++ qs.flatMap Piece.covers := by
  rw [← List.flatMap_append, ← h, covers_scan]

lemma sentenceEnds_succ_iff {s : Text} {k : Nat} :
    SentenceEnds s (k + 1) ↔ startsWithEnd ((maskTags s).drop k) = true := by
  have hrest {ps qs : List (Piece InlineTag)} {c : CodePoint}
      (hs : scan inlineTag s = ps ++ .point c :: qs) :
      s.drop ((ps.flatMap Piece.covers).length + 1) = qs.flatMap Piece.covers := by
    rw [covers_of_scan_eq hs]
    exact List.drop_length_add_append 1
  have hparted {ps qs : List (Piece InlineTag)} {c : CodePoint}
      (hs : scan inlineTag s = ps ++ .point c :: qs) :
      scan inlineTag s = (ps ++ [.point c]) ++ qs := by simp [hs]
  rw [startsWithEnd_iff]
  constructor
  · rintro ⟨ps, qs, hs, hk, hblank⟩
    obtain rfl := Nat.succ.inj hk
    refine ⟨qs.flatMap Piece.mask, ?_, ?_⟩
    · rw [maskTags_eq, hs, List.flatMap_append, ← length_flatMap_mask, List.drop_left]
      rfl
    · rwa [hrest hs, ← isBlank_head_mask_iff (hparted hs)] at hblank
  · rintro ⟨v, hdrop, hblank⟩
    obtain ⟨ps, qs, hs, rfl, rfl⟩ := exists_point_of_maskTags (by decide) hdrop
    refine ⟨ps, qs, hs, rfl, ?_⟩
    rwa [hrest hs, ← isBlank_head_mask_iff (hparted hs)]

/-- The summary ends at the first place where a sentence ends or a block begins, or with the
text. -/
theorem isLeast_summaryLength (s : Text) :
    IsLeast {k | SentenceEnds s k ∨ BlockBegins s k ∨ k = s.length} (summaryLength s) := by
  have hsentence : IsLeast {k | SentenceEnds s k ∨ k = s.length}
      ((sentenceEnd? (maskTags s)).getD s.length) := by
    rw [sentenceEnd?_eq]
    cases hfind : (maskTags s).tails.findIdx? startsWithEnd with
    | none =>
      refine ⟨.inr rfl, ?_⟩
      rintro k (hk | rfl)
      · obtain ⟨ps, qs, -, rfl, -⟩ := id hk
        exact absurd (sentenceEnds_succ_iff.1 hk) (not_of_findIdx?_tails hfind _)
      · exact Nat.le_refl _
    | some n =>
      obtain ⟨hn, hfirst⟩ := isLeast_of_findIdx?_tails hfind
      refine ⟨.inl (sentenceEnds_succ_iff.2 hn), ?_⟩
      rintro k (hk | rfl)
      · obtain ⟨ps, qs, -, rfl, -⟩ := id hk
        exact Nat.succ_le_succ (hfirst (sentenceEnds_succ_iff.1 hk))
      · -- the period stands in the text
        change n + 1 ≤ s.length
        by_contra hlt
        rw [Set.mem_ofPred_eq, List.drop_eq_nil_of_le (by rw [length_maskTags]; omega)] at hn
        cases hn
  have hunion : {k | SentenceEnds s k ∨ BlockBegins s k ∨ k = s.length} =
      {k | SentenceEnds s k ∨ k = s.length} ∪ {k | BlockBegins s k} := by
    ext k
    simp only [Set.mem_union, Set.mem_ofPred_eq]
    tauto
  rw [hunion, summaryLength, blockStart?_eq]
  cases hfind : (maskTags s).tails.findIdx? startsBlock with
  | none =>
    have hempty : {k | BlockBegins s k} = ∅ :=
      Set.eq_empty_iff_forall_notMem.2 (not_of_findIdx?_tails hfind)
    rw [hempty, Set.union_empty]
    exact hsentence
  | some n =>
    change IsLeast _ (min n _)
    rw [min_comm]
    exact hsentence.union (isLeast_of_findIdx?_tails hfind)

lemma exists_cons_of_startsBlock {s : Text} (h : startsBlock s = true) :
    ∃ v, s = .char '<' :: v := by
  unfold startsBlock at h
  split at h
  · exact ⟨_, rfl⟩
  · cases h

/-- The summary ends between the pieces of a scan for inline tags. -/
theorem uncut_summaryLength (s : Text) : Uncut inlineTag s (summaryLength s) := by
  rcases (isLeast_summaryLength s).1 with ⟨ps, qs, hs, hk, -⟩ | hblock | hlength
  · have hlast : ps ++ .point '.' :: qs = (ps ++ [.point '.']) ++ qs := by simp
    rw [hlast] at hs
    have huncut := isLocal_inlineTag.uncut_of_scan_eq hs
    rw [hk]
    simpa [Piece.covers] using huncut
  · obtain ⟨v, hdrop⟩ := exists_cons_of_startsBlock hblock
    obtain ⟨ps, qs, hs, hlength, -⟩ := exists_point_of_maskTags (by decide) hdrop
    rw [← hlength]
    exact isLocal_inlineTag.uncut_of_scan_eq hs
  · rw [hlength, Uncut, List.take_length, List.drop_length]
    exact (List.append_nil _).symm

/-! ### Links at the cut -/

/-- Whether a match has no brace between its first and its last code point. -/
def Piece.isPlain {α : Type} : Piece α → Bool
  | point _ => true
  | hit _ covered => covered.tail.dropLast.all fun c => c != '{' && c != '}'

/-- A link without braces inside is a tag. -/
lemma exists_inlineTag_of_plain {w r : Text} {l : InlineLink}
    (h : inlineLink (w ++ r) = some (l, r)) (hplain : (Piece.hit l w).isPlain = true) :
    ∃ a, inlineTag (w ++ r) = some (a, r) := by
  obtain ⟨name, gap, rest, hname, hne, hgap, hs, hl⟩ := inlineLink_eq_some_iff.1 h
  obtain ⟨v, rfl, -, -⟩ := linkContent_eq_some_iff.1 hl
  let content : Text := gap ++ (v.target ++ (v.partText ++ v.label))
  have hw : w = .char '{' :: (.char '@' :: (name ++ content) ++ [.char '}']) := by
    apply (List.append_left_inj r).1
    rw [hs]
    simp [content, v.text_append, tagOpening, ofString, ofChars]
  have hinside : ∀ c ∈ content, c ≠ .char '{' ∧ c ≠ .char '}' := by
    intro c hc
    rw [hw, Piece.isPlain, List.tail_cons, List.dropLast_concat, List.all_eq_true] at hplain
    simpa using hplain c (by simp [hc])
  have hblank : ∀ c ∈ content.head?, isBlank c = true := by
    intro c hc
    rw [List.head?_append_of_ne_nil _ hne] at hc
    exact hgap c (List.mem_of_mem_head? hc)
  have hnonempty : name ≠ [] := by rcases hname with rfl | rfl <;> decide
  have hword : ∀ c ∈ name, isWord c = true := by rcases hname with rfl | rfl <;> decide
  have htag := inlineTag_written hnonempty hword hblank (fun hmem => (hinside _ hmem).1 rfl)
    (fun hmem => (hinside _ hmem).2 rfl) r
  refine ⟨⟨name, trim content⟩, ?_⟩
  rw [← htag, hw]
  simp [tagOpening, ofString, ofChars]

/-- A border between tags is one between links if no link has braces inside. -/
lemma scan_inlineLink_append {s t : Text}
    (htags : scan inlineTag (s ++ t) = scan inlineTag s ++ scan inlineTag t)
    (hplain : ∀ p ∈ scan inlineLink (s ++ t), p.isPlain = true) :
    scan inlineLink (s ++ t) = scan inlineLink s ++ scan inlineLink t := by
  -- a link at the start of both texts ends where the tag does
  have htag {u r : Text} {l : InlineLink} (hfind : inlineLink u = some (l, r))
      (hplain : ∀ p ∈ scan inlineLink u, p.isPlain = true) : ∃ a, inlineTag u = some (a, r) := by
    obtain ⟨w, hw, rfl⟩ := isLocal_inlineLink.consumes hfind
    apply exists_inlineTag_of_plain hfind
    exact hplain _ (by rw [scan_append_of_some hw hfind]; exact List.mem_cons_self ..)
  induction s using isLocal_inlineTag.scan_induction with
  | nil => rfl
  | point c s hnone ih =>
    rw [scan_cons_of_none hnone, List.cons_append, List.cons_append] at htags
    obtain ⟨hnone', htags⟩ := of_scan_eq_point_cons htags
    have hlink : inlineLink (c :: s ++ t) = none := by
      rw [Option.eq_none_iff_forall_ne_some]
      rintro ⟨l, r⟩ hfind
      obtain ⟨a, ha⟩ := htag hfind hplain
      rw [List.cons_append, hnone'] at ha
      cases ha
    have hlink' := isLocal_inlineLink.find_of_append_eq_none hlink
    rw [List.cons_append] at hlink hplain ⊢
    rw [scan_cons_of_none hlink] at hplain ⊢
    rw [scan_cons_of_none hlink', ih htags fun p hp => hplain p (List.mem_cons_of_mem _ hp),
      List.cons_append]
  | hit a w s hw hfind ih =>
    have hfind' := inlineTag_append hfind t
    rw [List.append_assoc] at hfind' htags hplain ⊢
    rw [scan_append_of_some hw hfind', scan_append_of_some hw hfind, List.cons_append] at htags
    replace htags := (List.cons.inj htags).2
    cases hlink : inlineLink (w ++ (s ++ t)) with
    | none =>
      have hlink' : inlineLink (w ++ s) = none :=
        isLocal_inlineLink.find_of_append_eq_none (t := t) (by rwa [List.append_assoc])
      rw [scan_inlineLink_of_none hfind hlink] at hplain ⊢
      rw [scan_inlineLink_of_none hfind hlink', List.append_assoc,
        ih htags fun p hp => hplain p (List.mem_append_right _ hp)]
    | some found =>
      obtain ⟨l, r⟩ := found
      obtain ⟨b, hb⟩ := htag hlink hplain
      obtain ⟨-, rfl⟩ := Prod.mk.inj (Option.some.inj (hfind'.symm.trans hb))
      have hlink' : inlineLink (w ++ s) = some (l, s) :=
        isLocal_inlineLink.restricts (t := t) (by rwa [List.append_assoc])
      rw [scan_append_of_some hw hlink] at hplain ⊢
      rw [scan_append_of_some hw hlink', List.cons_append,
        ih htags fun p hp => hplain p (List.mem_cons_of_mem _ hp)]

lemma Uncut.inlineLink {s : Text} {n : Nat} (h : Uncut inlineTag s n)
    (hplain : ∀ p ∈ scan inlineLink s, p.isPlain = true) : Uncut inlineLink s n := by
  rw [Uncut] at h ⊢
  conv_lhs => rw [← List.take_append_drop n s]
  rw [← List.take_append_drop n s] at hplain
  apply scan_inlineLink_append _ hplain
  rw [List.take_append_drop, h]

/-! ### What is left at the cut -/

lemma dropWhile_of_isPrefix {p : CodePoint → Bool} {s t : Text} (h : s <+: t)
    (ht : t.dropWhile p = t) : s.dropWhile p = s := by
  cases s with
  | nil => rfl
  | cons c s =>
    obtain ⟨r, rfl⟩ := h
    rw [List.cons_append, List.dropWhile_eq_self_iff] at ht
    exact List.dropWhile_cons_of_neg (ht (by simp))

/-- Only white space is lost where a trimmed text is cut and its parts are trimmed. -/
lemma exists_blanks_of_cut {s : Text} (h : trim s = s) (n : Nat) :
    ∃ blanks, (∀ c ∈ blanks, isBlank c = true) ∧
      s = trim (s.take n) ++ blanks ++ trim (s.drop n) := by
  have hleft : trimLeft (s.take n) = s.take n := by
    apply dropWhile_of_isPrefix (List.take_prefix n s)
    rw [← trimLeft, ← h, trimLeft_trim]
  have hright : trimRight (trimLeft (s.drop n)) = trimLeft (s.drop n) := by
    have hsuffix : trimLeft (s.drop n) <:+ s :=
      (List.dropWhile_suffix _).trans (List.drop_suffix n s)
    have hwhole : s.reverse.dropWhile isBlank = s.reverse := by
      apply List.reverse_injective
      rw [List.reverse_reverse]
      exact trimRight_eq_self h
    rw [trimRight, dropRightWhile,
      dropWhile_of_isPrefix (List.reverse_prefix.2 hsuffix) hwhole, List.reverse_reverse]
  obtain ⟨before, hbefore, htake⟩ := exists_trimRight_append (trimLeft (s.take n))
  obtain ⟨after, hafter, hdrop⟩ := exists_append_trimLeft (s.drop n)
  refine ⟨before ++ after, fun c hc => (List.mem_append.1 hc).elim (hbefore c) (hafter c), ?_⟩
  calc s
    _ = s.take n ++ s.drop n := (List.take_append_drop n s).symm
    _ = (trim (s.take n) ++ before) ++ (after ++ trim (s.drop n)) := by
        rw [trim, trim, ← htake, hright, ← hdrop, hleft]
    _ = trim (s.take n) ++ (before ++ after) ++ trim (s.drop n) := by simp

/-! ### The first sentence -/

/-- The summary and the body of a comment are what stands before and after the first place of the
trimmed comment where a sentence ends or a block begins, or its end. They are trimmed there, and
apart from that white space they are the whole comment. The place is between the pieces of a scan
for inline tags. So if no link of the comment has a brace inside, the mentions of the comment are
those of the summary and then those of the body. -/
theorem splitFirstSentence_exact (comment : Text) :
    ∃ n blanks,
      IsLeast {k | SentenceEnds (trim comment) k ∨ BlockBegins (trim comment) k ∨
        k = (trim comment).length} n ∧
      Uncut inlineTag (trim comment) n ∧
      splitFirstSentence comment =
        (trim ((trim comment).take n), trim ((trim comment).drop n)) ∧
      (∀ c ∈ blanks, isBlank c = true) ∧
      trim comment = (splitFirstSentence comment).1 ++ blanks ++ (splitFirstSentence comment).2 ∧
      ((∀ p ∈ scan inlineLink comment, p.isPlain = true) →
        mentions comment = mentions (splitFirstSentence comment).1 ++
          mentions (splitFirstSentence comment).2) := by
  obtain ⟨blanks, hblanks, hwhole⟩ := exists_blanks_of_cut (trim_trim comment)
    (summaryLength (trim comment))
  have huncut := uncut_summaryLength (trim comment)
  refine ⟨summaryLength (trim comment), blanks, isLeast_summaryLength _, huncut, rfl, hblanks,
    hwhole, fun hplain => ?_⟩
  have hplain' : ∀ p ∈ scan inlineLink (trim comment), p.isPlain = true := by
    intro p hp
    obtain ⟨before, after, hscan⟩ :=
      isLocal_inlineLink.scan_trim inlineLink_of_ne exists_concat_of_inlineLink comment
    exact hplain p (by rw [hscan]; simp [hp])
  have hlinks : inlineLinks (trim comment) =
      inlineLinks ((trim comment).take (summaryLength (trim comment))) ++
        inlineLinks ((trim comment).drop (summaryLength (trim comment))) :=
    (huncut.inlineLink hplain').allMatches_eq
  rw [mentions, ← inlineLinks_trim comment, hlinks, List.map_append, splitFirstSentence]
  simp only [mentions, inlineLinks_trim]

/-- Two links, with a period and white space in the first one. -/
def linkedPeriod : Text :=
  " See \x7b@link List#of(a. b) one\x7d. \n Then \x7b@linkplain Set\x7d. <p>"

theorem splitFirstSentence_exact_linkedPeriod :
    (∀ p ∈ scan inlineLink linkedPeriod, p.isPlain = true) ∧
      (splitFirstSentence linkedPeriod).1 = "See \x7b@link List#of(a. b) one\x7d." ∧
      (splitFirstSentence linkedPeriod).2 = "Then \x7b@linkplain Set\x7d. <p>" ∧
      mentions linkedPeriod = [⟨"List#of(a. b)", "one"⟩, ⟨"Set", ""⟩] ∧
      mentions linkedPeriod = mentions (splitFirstSentence linkedPeriod).1 ++
        mentions (splitFirstSentence linkedPeriod).2 := by
  have hplain : ∀ p ∈ scan inlineLink linkedPeriod, p.isPlain = true := by decide +kernel
  obtain ⟨n, blanks, -, -, -, -, -, hmentions⟩ := splitFirstSentence_exact linkedPeriod
  exact ⟨hplain, by decide +kernel, by decide +kernel, by decide +kernel, hmentions hplain⟩

end ApiDocs.Comment
