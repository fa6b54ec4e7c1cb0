import ApiDocs.Comment.Inline
import Mathlib.Data.List.DropRight
import Mathlib.Data.List.TakeWhile

/-!
# Laws of cutting texts

What trimming, cutting at a code point and splitting at a word do to a text that is put together
from two parts, where the seam is a code point that the operation stops at.
-/

namespace ApiDocs.Text

/-! ### White space and word characters -/

def blankRanges : List (Nat × Nat) :=
  [(9, 13), (28, 32), (0x85, 0x85), (0xA0, 0xA0), (0x1680, 0x1680), (0x2000, 0x200A),
    (0x2028, 0x2028), (0x2029, 0x2029), (0x202F, 0x202F), (0x205F, 0x205F), (0x3000, 0x3000)]

lemma isBlank_iff {c : CodePoint} : isBlank c = true ↔ inRanges c.toNat blankRanges = true := by
  simp only [isBlank, inRanges, blankRanges, Bool.or_eq_true, Bool.and_eq_true, decide_eq_true_eq,
    beq_iff_eq, Nat.le_antisymm_iff, Bool.false_eq_true, or_false, or_assoc, and_comm]

lemma ne_of_isBlank {c d : CodePoint} (hc : isBlank c = true) (hd : isBlank d = false) : c ≠ d := by
  rintro rfl
  rw [hc] at hd
  cases hd

lemma not_isWord_of_isBlank {c : CodePoint} (h : isBlank c = true) : isWord c = false := by
  obtain ⟨b, hb, hle, hge⟩ := (inRanges_iff _ _).1 (isBlank_iff.1 h)
  by_cases hascii : c.toNat < 128
  · have hchars : ∀ n < 128, inRanges n blankRanges = true →
        isWord (.char (Char.ofNat n)) = false ∧ (CodePoint.char (Char.ofNat n)).toNat = n := by
      decide
    obtain ⟨hword, hnumber⟩ := hchars _ hascii (isBlank_iff.1 h)
    rwa [CodePoint.toNat_inj.1 hnumber] at hword
  · have hapart : ∀ b ∈ blankRanges, ∀ w ∈ wordRanges, b.2 < w.1 ∨ w.2 < b.1 := by decide +kernel
    rw [isWord, if_neg hascii, Bool.eq_false_iff, ne_eq, inRanges_iff]
    rintro ⟨w, hw, hle', hge'⟩
    rcases hapart b hb w hw with hlt | hlt <;> omega

/-! ### A seam -/

section

variable {p : CodePoint → Bool} {d : CodePoint}

lemma takeWhile_append_seam (h : p d = false) (s t : Text) :
    (s ++ d :: t).takeWhile p = s.takeWhile p := by
  induction s with
  | nil => simp [h]
  | cons c s ih =>
    rw [List.cons_append, List.takeWhile_cons, List.takeWhile_cons, ih]

lemma dropWhile_append_seam (h : p d = false) (s t : Text) :
    (s ++ d :: t).dropWhile p = s.dropWhile p ++ d :: t := by
  induction s with
  | nil => simp [h]
  | cons c s ih =>
    rw [List.cons_append, List.dropWhile_cons, List.dropWhile_cons, ih]
    split <;> rfl

lemma dropRightWhile_append_seam (h : p d = false) (s t : Text) :
    dropRightWhile p (s ++ d :: t) = s ++ d :: dropRightWhile p t := by
  have hreverse : (s ++ d :: t).reverse = t.reverse ++ d :: s.reverse := by simp
  rw [dropRightWhile, hreverse, dropWhile_append_seam h]
  simp [dropRightWhile]

end

/-- Operations that agree on the code points of a text cut it at the same place. -/
lemma cut_congr {p q : CodePoint → Bool} {s : Text} (h : ∀ c ∈ s, p c = q c) :
    s.takeWhile p = s.takeWhile q ∧ s.dropWhile p = s.dropWhile q := by
  induction s with
  | nil => exact ⟨rfl, rfl⟩
  | cons c s ih =>
    obtain ⟨hc, hs⟩ := List.forall_mem_cons.1 h
    obtain ⟨htake, hdrop⟩ := ih hs
    simp only [List.takeWhile_cons, List.dropWhile_cons, hc, htake, hdrop, and_self]

/-! ### What is left at the ends -/

section

variable {p : CodePoint → Bool} {c : CodePoint} {t : Text}

lemma not_of_head?_dropWhile (h : (t.dropWhile p).head? = some c) : p c = false := by
  have hhead := List.head?_dropWhile_not p t
  rw [h] at hhead
  simpa using hhead

lemma not_of_getLast?_dropRightWhile (h : (dropRightWhile p t).getLast? = some c) :
    p c = false := by
  rw [dropRightWhile, List.getLast?_reverse] at h
  exact not_of_head?_dropWhile h

lemma head?_of_head?_dropRightWhile (h : (dropRightWhile p t).head? = some c) :
    t.head? = some c := by
  rw [← dropRightWhile_append_takeRightWhile p t, List.head?_append, h, Option.some_or]

/-- Nothing is left where every code point is dropped. -/
lemma dropRightWhile_eq_nil_iff : dropRightWhile p t = [] ↔ ∀ c ∈ t, p c = true := by
  rw [dropRightWhile, List.reverse_eq_nil_iff, List.dropWhile_eq_nil_iff]
  simp only [List.mem_reverse]

end

lemma isPrefixOf?_cons_cons (c c' : CodePoint) (w s : Text) :
    List.isPrefixOf? (c :: w) (c' :: s) = if c == c' then w.isPrefixOf? s else none :=
  rfl

lemma isPrefixOf?_append_seam {w : Text} {d : CodePoint} (h : d ∉ w) (s t : Text) :
    w.isPrefixOf? (s ++ d :: t) = (w.isPrefixOf? s).map (· ++ d :: t) := by
  induction w generalizing s with
  | nil => rfl
  | cons c w ih =>
    obtain ⟨hc, hw⟩ := not_or.1 (mt List.mem_cons.2 h)
    cases s with
    | nil =>
      rw [List.nil_append, isPrefixOf?_cons_cons, if_neg (by simpa using Ne.symm hc)]
      rfl
    | cons c' s =>
      rw [List.cons_append, isPrefixOf?_cons_cons, isPrefixOf?_cons_cons, ih hw]
      split <;> rfl

/-- A word up to its only `d` stands at the start of a text only where the first `d` ends the same
word. -/
lemma eq_of_isPrefix_seam {w s t : Text} {d : CodePoint} (hw : d ∉ w) (hs : d ∉ s)
    (h : w ++ [d] <+: s ++ d :: t) : w = s := by
  obtain ⟨r, hr⟩ := h
  have hfirst {u v : Text} (hu : d ∉ u) : (u ++ d :: v).takeWhile (· != d) = u := by
    rw [takeWhile_append_seam (by simp), List.takeWhile_eq_self_iff]
    rintro c hc
    rw [bne_iff_ne]
    rintro rfl
    exact hu hc
  have htaken := congrArg (List.takeWhile (· != d)) hr
  rwa [List.append_assoc, List.singleton_append, hfirst hw, hfirst hs] at htaken

lemma cutAt_append {sep : CodePoint} {s : Text} (h : sep ∈ s) :
    ∃ a b, s = a ++ sep :: b ∧ ∀ t, cutAt sep (s ++ t) = (a, some (b ++ t)) := by
  induction s with
  | nil => cases h
  | cons c s ih =>
    by_cases hc : c = sep
    · exact ⟨[], s, by rw [hc]; rfl, fun t => by rw [List.cons_append, cutAt, if_pos hc]⟩
    · obtain ⟨a, b, hs, hcut⟩ := ih ((List.mem_cons.1 h).resolve_left (Ne.symm hc))
      exact ⟨c :: a, b, by rw [hs]; rfl, fun t => by rw [List.cons_append, cutAt, if_neg hc, hcut]⟩

/-- A part without the separator belongs to what stands before the first one. -/
lemma cutAt_append_of_notMem {sep : CodePoint} {s : Text} (h : sep ∉ s) (t : Text) :
    cutAt sep (s ++ t) = (s ++ (cutAt sep t).1, (cutAt sep t).2) := by
  induction s with
  | nil => rfl
  | cons c s ih =>
    obtain ⟨hc, hs⟩ := not_or.1 (mt List.mem_cons.2 h)
    rw [List.cons_append, cutAt, if_neg (Ne.symm hc), ih hs, List.cons_append]

lemma cutAt_append_seam {sep : CodePoint} {s : Text} (h : sep ∉ s) (t : Text) :
    cutAt sep (s ++ sep :: t) = (s, some t) := by
  rw [cutAt_append_of_notMem h, cutAt, if_pos rfl, List.append_nil]

lemma cutAt_of_notMem {sep : CodePoint} {s : Text} (h : sep ∉ s) : cutAt sep s = (s, none) := by
  simpa [cutAt] using cutAt_append_of_notMem h []

lemma eq_of_cutAt {sep : CodePoint} {s a b : Text} (h : cutAt sep s = (a, some b)) :
    s = a ++ sep :: b ∧ sep ∉ a := by
  induction s generalizing a with
  | nil => cases h
  | cons c s ih =>
    rw [cutAt] at h
    split at h
    · rename_i hc
      cases h
      exact ⟨by rw [hc]; rfl, List.not_mem_nil⟩
    · rename_i hc
      obtain ⟨rfl, hb⟩ := Prod.mk.inj h
      obtain ⟨hs, ha⟩ := ih (Prod.ext rfl hb)
      exact ⟨congrArg (c :: ·) hs, fun hmem => (List.mem_cons.1 hmem).elim (hc ·.symm) ha⟩

/-! ### Trimming -/

lemma trimLeft_cons_of_not {c : CodePoint} (h : isBlank c = false) (s : Text) :
    trimLeft (c :: s) = c :: s :=
  List.dropWhile_cons_of_neg (by simpa using h)

lemma trimLeft_append_seam {d : CodePoint} (h : isBlank d = false) (s t : Text) :
    trimLeft (s ++ d :: t) = trimLeft s ++ d :: t :=
  dropWhile_append_seam h s t

lemma trimRight_append_seam {d : CodePoint} (h : isBlank d = false) (s t : Text) :
    trimRight (s ++ d :: t) = s ++ d :: trimRight t :=
  dropRightWhile_append_seam h s t

lemma trimRight_cons_of_isBlank {c : CodePoint} (h : isBlank c = true) (s : Text) :
    trimRight (c :: s) = [] ∨ trimRight (c :: s) = c :: trimRight s := by
  rw [trimRight, dropRightWhile, List.reverse_cons, List.dropWhile_append]
  split
  · left
    simp [h]
  · right
    simp [trimRight, dropRightWhile]

lemma exists_trimRight_append (s : Text) :
    ∃ blanks : Text, (∀ c ∈ blanks, isBlank c = true) ∧ s = trimRight s ++ blanks := by
  refine ⟨takeRightWhile isBlank s, fun c hc => ?_,
    (dropRightWhile_append_takeRightWhile isBlank s).symm⟩
  exact List.mem_takeWhile_imp (List.mem_reverse.1 hc)

lemma exists_append_trimLeft (s : Text) :
    ∃ blanks : Text, (∀ c ∈ blanks, isBlank c = true) ∧ s = blanks ++ trimLeft s :=
  ⟨s.takeWhile isBlank, fun _ hc => List.mem_takeWhile_imp hc,
    (List.takeWhile_append_dropWhile ..).symm⟩

lemma trimLeft_trim (s : Text) : trimLeft (trim s) = trim s := by
  obtain ⟨blanks, -, hsplit⟩ := exists_trimRight_append (trimLeft s)
  rw [trim]
  cases hright : trimRight (trimLeft s) with
  | nil => rfl
  | cons c r =>
    -- the first code point is that of the text without white space at its start
    have hhead := List.head?_dropWhile_not isBlank s
    rw [← trimLeft, hsplit, hright] at hhead
    rw [trimLeft_cons_of_not (by simpa using hhead)]

lemma trimRight_trimRight (s : Text) : trimRight (trimRight s) = trimRight s := by
  rw [trimRight, trimRight, dropRightWhile, dropRightWhile, List.reverse_reverse,
    List.dropWhile_idempotent]

lemma trim_trim (s : Text) : trim (trim s) = trim s := by
  rw [trim, trimLeft_trim, trim, trimRight_trimRight]

lemma trimRight_eq_self {s : Text} (h : trim s = s) : trimRight s = s := by
  rw [← h, trim, trimRight_trimRight]

lemma not_isBlank_of_head? {s : Text} {c : CodePoint} (h : trim s = s) (hc : s.head? = some c) :
    isBlank c = false := by
  rw [← h, trim] at hc
  exact not_of_head?_dropWhile (head?_of_head?_dropRightWhile hc)

lemma not_isBlank_of_getLast? {s : Text} {c : CodePoint} (h : trim s = s)
    (hc : s.getLast? = some c) : isBlank c = false := by
  rw [← h, trim] at hc
  exact not_of_getLast?_dropRightWhile hc

lemma trim_blanks_append {gap : Text} (h : ∀ c ∈ gap, isBlank c = true) (s : Text) :
    trim (gap ++ s) = trim s := by
  rw [trim, trimLeft, List.dropWhile_append_of_pos h, trim, trimLeft]

/-- The end of a text is trimmed, and what stands before it if nothing is left of the end. -/
lemma trimRight_append (s t : Text) : trimRight (s ++ t) =
    if trimRight t = [] then trimRight s else s ++ trimRight t := by
  rw [trimRight, dropRightWhile, List.reverse_append, List.dropWhile_append]
  simp only [trimRight, dropRightWhile, List.isEmpty_iff, List.reverse_eq_nil_iff]
  split
  · rfl
  · rw [List.reverse_append, List.reverse_reverse]

lemma trimRight_append_blanks {gap : Text} (h : ∀ c ∈ gap, isBlank c = true) (s : Text) :
    trimRight (s ++ gap) = trimRight s := by
  have hnil : trimRight gap = [] := dropRightWhile_eq_nil_iff.2 h
  rw [trimRight_append, if_pos hnil]

lemma trimRight_length_le (s : Text) : (trimRight s).length ≤ s.length := by
  rw [trimRight, dropRightWhile, List.length_reverse]
  calc (s.reverse.dropWhile isBlank).length
    _ ≤ s.reverse.length := (List.dropWhile_sublist _).length_le
    _ = s.length := List.length_reverse

lemma trimRight_length_append (s t : Text) :
    (trimRight t).length ≤ (trimRight (s ++ t)).length := by
  rw [trimRight_append]
  split
  · rename_i h
    simp [h]
  · simp

/-- What stands before two ends does not tell them apart. -/
lemma trimRight_append_inj {s t u : Text} :
    trimRight (s ++ t) = trimRight (s ++ u) ↔ trimRight t = trimRight u := by
  have hend {r : Text} (h : trimRight s = s ++ r) : r = [] := by
    have hle := trimRight_length_le s
    rw [h, List.length_append] at hle
    exact List.eq_nil_of_length_eq_zero (by omega)
  constructor
  · intro h
    rw [trimRight_append, trimRight_append] at h
    split at h <;> split at h
    · simp_all
    · exact absurd (hend h) ‹_›
    · exact absurd (hend h.symm) ‹_›
    · exact List.append_cancel_left h
  · intro h
    rw [trimRight_append, trimRight_append, h]

lemma trim_append_of_trimLeft_ne_nil {s : Text} (h : trimLeft s ≠ []) (t : Text) :
    trim (s ++ t) = trimRight (trimLeft s ++ t) := by
  rw [trim, trimLeft, List.dropWhile_append, ← trimLeft, if_neg (by simpa using h)]

lemma trim_append_blanks {gap : Text} (h : ∀ c ∈ gap, isBlank c = true) (s : Text) :
    trim (s ++ gap) = trim s := by
  by_cases hs : trimLeft s = []
  · have hgap : trimLeft gap = [] := List.dropWhile_eq_nil_iff.2 h
    rw [trim_blanks_append (List.dropWhile_eq_nil_iff.1 hs), trim, trim, hs, hgap]
  · rw [trim_append_of_trimLeft_ne_nil hs, trimRight_append_blanks h, trim]

/-- Of a text put together from two that begin without white space, only the end is trimmed. -/
lemma trim_append_seam {b c : CodePoint} (hb : isBlank b = false) (hc : isBlank c = false)
    (s t : Text) : trim (b :: s ++ c :: t) = b :: s ++ trim (c :: t) := by
  rw [trim, List.cons_append, trimLeft_cons_of_not hb, ← List.cons_append,
    trimRight_append_seam hc, trim, trimLeft_cons_of_not hc, ← List.nil_append (c :: t),
    trimRight_append_seam hc, List.nil_append]

/-- A text that has no white space at its ends is not trimmed. -/
lemma trim_eq_self {s : Text} (hhead : ∀ c ∈ s.head?, isBlank c = false)
    (hlast : ∀ c ∈ s.getLast?, isBlank c = false) : trim s = s := by
  cases s with
  | nil => rfl
  | cons c s =>
    obtain ⟨r, d, hr⟩ := (List.eq_nil_or_concat' (c :: s)).resolve_left (List.cons_ne_nil c s)
    rw [hr] at hlast
    rw [trim, trimLeft_cons_of_not (hhead c rfl), hr, trimRight_append_seam (hlast d (by simp))]
    rfl

/-! ### Splitting into words -/

lemma splitWhere_cons_of_not {p : CodePoint → Bool} {c : CodePoint} (h : p c = false) (s : Text) :
    splitWhere p (c :: s) = (splitWhere p s).modifyHead (c :: ·) := by
  obtain ⟨w, ws, hw⟩ := List.exists_cons_of_ne_nil (splitWhere_ne_nil p s)
  simp [splitWhere, h, hw]

lemma words_cons_of_isBlank {c : CodePoint} (h : isBlank c = true) (s : Text) :
    words (c :: s) = words s := by
  simp [words, splitWhere, h]

lemma splitWhere_append_seam {p : CodePoint → Bool} {d : CodePoint} (h : p d = true) (s t : Text) :
    splitWhere p (s ++ d :: t) = splitWhere p s ++ splitWhere p t := by
  induction s with
  | nil => simp [splitWhere, h]
  | cons c s ih =>
    obtain ⟨w, ws, hw⟩ := List.exists_cons_of_ne_nil (splitWhere_ne_nil p s)
    rw [hw] at ih
    cases hc : p c <;> simp [splitWhere, hc, ih, hw]

/-- White space parts the words before it from those after it. -/
lemma words_append_seam {d : CodePoint} (h : isBlank d = true) (s t : Text) :
    words (s ++ d :: t) = words s ++ words t := by
  rw [words, splitWhere_append_seam h, List.filter_append]
  rfl

/-- The words of a text are all of it but the white space. -/
lemma flatten_words (s : Text) : (words s).flatten = withoutBlanks s := by
  rw [words, List.flatten_filter_not_isEmpty]
  induction s with
  | nil => rfl
  | cons c s ih =>
    obtain ⟨w, ws, hw⟩ := List.exists_cons_of_ne_nil (splitWhere_ne_nil isBlank s)
    rw [hw] at ih
    rw [withoutBlanks] at ih ⊢
    cases hc : isBlank c <;> simp_all [splitWhere]

lemma words_blanks_append {gap : Text} (h : ∀ c ∈ gap, isBlank c = true) (s : Text) :
    words (gap ++ s) = words s := by
  induction gap with
  | nil => rfl
  | cons c gap ih =>
    obtain ⟨hc, hgap⟩ := List.forall_mem_cons.1 h
    rw [List.cons_append, words_cons_of_isBlank hc, ih hgap]

/-- A word at the start is cut off where white space follows. -/
lemma splitWhere_word_append {w : Text} (h : ∀ c ∈ w, isBlank c = false) (s : Text) :
    splitWhere isBlank (w ++ s) = (splitWhere isBlank s).modifyHead (w ++ ·) := by
  obtain ⟨v, vs, hv⟩ := List.exists_cons_of_ne_nil (splitWhere_ne_nil isBlank s)
  induction w with
  | nil => simp [hv]
  | cons c w ih =>
    obtain ⟨hc, hw⟩ := List.forall_mem_cons.1 h
    rw [List.cons_append, splitWhere_cons_of_not hc, ih hw, hv]
    rfl

lemma words_word {w : Text} (hne : w ≠ []) (h : ∀ c ∈ w, isBlank c = false) : words w = [w] := by
  have hsplit := splitWhere_word_append h []
  rw [List.append_nil] at hsplit
  simp [words, hsplit, splitWhere, hne]

lemma words_word_append {w gap : Text} (hne : w ≠ []) (h : ∀ c ∈ w, isBlank c = false)
    (hgap : gap ≠ []) (hblank : ∀ c ∈ gap, isBlank c = true) (s : Text) :
    words (w ++ (gap ++ s)) = w :: words s := by
  obtain ⟨b, gap, rfl⟩ := List.exists_cons_of_ne_nil hgap
  obtain ⟨hb, hrest⟩ := List.forall_mem_cons.1 hblank
  rw [← words_blanks_append hrest s, words, splitWhere_word_append h, List.cons_append, splitWhere,
    if_pos hb]
  simp [words, hne]

/-! ### Splitting at a word -/

lemma splitOnWordFrom_eq (word : Text) (skip : Nat) (s : Text) :
    splitOnWordFrom word skip s = splitOnWord word (s.drop skip) := by
  induction s generalizing skip with
  | nil => cases skip <;> rfl
  | cons c s ih =>
    cases skip with
    | zero => rfl
    | succ skip => exact ih skip

lemma splitOnWord_ne_nil (word s : Text) : splitOnWord word s ≠ [] := by
  have h (skip : Nat) : splitOnWordFrom word skip s ≠ [] := by
    induction s generalizing skip with
    | nil => simp [splitOnWordFrom]
    | cons c s ih =>
      cases skip with
      | succ skip => exact ih skip
      | zero =>
        rw [splitOnWordFrom]
        split
        · simp
        · split <;> simp
  exact h 0

/-- A code point where the word does not begin belongs to the first piece. -/
lemma splitOnWord_cons {word : Text} {c : CodePoint} {s : Text} (h : ¬ word <+: c :: s) :
    splitOnWord word (c :: s) = (splitOnWord word s).modifyHead (c :: ·) := by
  obtain ⟨w, ws, hw⟩ := List.exists_cons_of_ne_nil (splitOnWord_ne_nil word s)
  rw [splitOnWord, splitOnWordFrom, if_neg (by simpa using h), ← splitOnWord, hw,
    List.modifyHead_cons]

lemma splitOnWord_append {word : Text} (h : word ≠ []) (s : Text) :
    splitOnWord word (word ++ s) = [] :: splitOnWord word s := by
  obtain ⟨c, w, rfl⟩ := List.exists_cons_of_ne_nil h
  rw [splitOnWord, List.cons_append, splitOnWordFrom, if_pos (by simp), splitOnWordFrom_eq]
  simp

/-- A part without the first code point of the word belongs to the first piece. -/
lemma splitOnWord_append_of_notMem {first : CodePoint} {s : Text} (rest : Text) (h : first ∉ s)
    (t : Text) :
    splitOnWord (first :: rest) (s ++ t) = (splitOnWord (first :: rest) t).modifyHead (s ++ ·) := by
  obtain ⟨w, ws, hw⟩ := List.exists_cons_of_ne_nil (splitOnWord_ne_nil (first :: rest) t)
  induction s with
  | nil => rw [List.nil_append, hw, List.modifyHead_cons, List.nil_append]
  | cons c s ih =>
    obtain ⟨hc, hs⟩ := not_or.1 (mt List.mem_cons.2 h)
    have hfirst : ¬ first :: rest <+: c :: (s ++ t) := fun hp => hc (List.cons_prefix_cons.1 hp).1
    rw [List.cons_append, splitOnWord_cons hfirst, ih hs, hw]
    rfl

lemma hasWord_iff {word s : Text} : hasWord word s = true ↔ word <:+: s := by
  induction s with
  | nil => rw [hasWord, List.isEmpty_iff, List.infix_nil]
  | cons c s ih =>
    rw [hasWord, Bool.or_eq_true, ih, List.isPrefixOf_iff_prefix, List.infix_cons_iff]

/-- A text without the word is one piece. In any other one the first piece is what stands before the
first occurrence of the word, and the other pieces are those of the text after it. -/
lemma splitOnWord_cases {word : Text} (hword : word ≠ []) (s : Text) :
    (hasWord word s = false ∧ splitOnWord word s = [s]) ∨
      ∃ w r, hasWord word w = false ∧ s = w ++ (word ++ r) ∧
        splitOnWord word s = w :: splitOnWord word r := by
  have hnil : hasWord word [] = false := by simpa [hasWord] using hword
  induction s with
  | nil => exact .inl ⟨hnil, rfl⟩
  | cons c s ih =>
    by_cases hstart : word <+: c :: s
    · obtain ⟨r, hr⟩ := hstart
      exact .inr ⟨[], r, hnil, hr.symm, by rw [← hr, splitOnWord_append hword]⟩
    · have hcons {t : Text} (hnone : hasWord word t = false) (ht : t <+: s) :
          hasWord word (c :: t) = false := by
        rw [hasWord, hnone, Bool.or_false, Bool.eq_false_iff, ne_eq, List.isPrefixOf_iff_prefix]
        exact fun h => hstart (h.trans (List.cons_prefix_cons.2 ⟨rfl, ht⟩))
      rcases ih with ⟨hnone, hpieces⟩ | ⟨w, r, hnone, hs, hpieces⟩
      · exact .inl ⟨hcons hnone (List.prefix_refl s), by
          rw [splitOnWord_cons hstart, hpieces, List.modifyHead_cons]⟩
      · refine .inr ⟨c :: w, r, hcons hnone (hs ▸ List.prefix_append ..), ?_, ?_⟩
        · rw [hs, List.cons_append]
        · rw [splitOnWord_cons hstart, hpieces, List.modifyHead_cons]

end ApiDocs.Text
