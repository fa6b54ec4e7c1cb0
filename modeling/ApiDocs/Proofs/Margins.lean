import ApiDocs.Comment.Margin
import ApiDocs.Proofs.Joining

/-!
# Margins of comments

The margin of a line is white space, an asterisk that no slash follows, and one space after it.
Margins are dropped line by line, except that blank lines right before a line with a margin go with
it. So a comment loses line breaks inside exactly where such a line stands between lines that have a
text.
-/

namespace ApiDocs.Comment

open Text

/-! ### Lines and their margins -/

def commentLines (s : Text) : List Text := splitWhere (· == .char '\n') s

def hasMargin (line : Text) : Bool :=
  match trimLeft line with
  | .char '*' :: .char '/' :: _ => false
  | .char '*' :: _ => true
  | _ => false

def withoutMargin (line : Text) : Text :=
  match trimLeft line with
  | .char '*' :: .char '/' :: _ => line
  | .char '*' :: .char ' ' :: rest => rest
  | .char '*' :: rest => rest
  | _ => line

def isBlankLine (line : Text) : Bool := line.all isBlank

/-- Whether the first line that is not blank has a margin. -/
def leadsToMargin : List Text → Bool
  | [] => false
  | l :: ls => if isBlankLine l then leadsToMargin ls else hasMargin l

/-- Whether a line goes with the margin of a line after it. -/
def isGap (line : Text) (after : List Text) : Bool := isBlankLine line && leadsToMargin after

/-- The lines but for the blank ones right before a margin. -/
def dropGaps : List Text → List Text
  | [] => []
  | l :: ls => if isGap l ls then dropGaps ls else l :: dropGaps ls

/-- Lines with line feeds before them. -/
def afterBreaks (ls : List Text) : Text := ls.flatMap (.char '\n' :: ·)

lemma joinWith_cons (l : Text) (ls : List Text) :
    joinWith "\n" (l :: ls) = l ++ afterBreaks ls := by
  induction ls generalizing l with
  | nil => simp [joinWith, afterBreaks]
  | cons l' ls ih =>
    rw [joinWith, ih]
    · simp [afterBreaks, ofString, ofChars]
    · exact List.cons_ne_nil _ _

lemma append_afterBreaks_cons (l l' : Text) (ls : List Text) :
    l ++ afterBreaks (l' :: ls) = (l ++ [.char '\n']) ++ (l' ++ afterBreaks ls) := by
  simp [afterBreaks]

/-! ### What is dropped at the start of a line -/

/-- How many code points of a margin stand after its white space. -/
def starLength? : Text → Option Nat
  | .char '*' :: .char '/' :: _ => none
  | .char '*' :: .char ' ' :: _ => some 2
  | .char '*' :: _ => some 1
  | _ => none

lemma marginLength?_eq (s : Text) :
    marginLength? s = (starLength? (trimLeft s)).map ((s.takeWhile isBlank).length + ·) := by
  rw [marginLength?, trimLeft]
  split <;> simp_all [starLength?]

lemma withoutMargin_eq (l : Text) :
    withoutMargin l = ((starLength? (trimLeft l)).map (trimLeft l).drop).getD l := by
  rw [withoutMargin]
  split <;> simp_all [starLength?]

lemma hasMargin_eq (l : Text) : hasMargin l = (starLength? (trimLeft l)).isSome := by
  rw [hasMargin]
  split
  · simp_all [starLength?]
  · rename_i heq
    rw [heq, starLength?.eq_def]
    split <;> simp_all
  · simp_all [starLength?]

lemma starLength?_of_ne {c : CodePoint} (h : c ≠ '*') (s : Text) : starLength? (c :: s) = none := by
  rw [starLength?.eq_def]
  split <;> simp_all

lemma starLength?_star (s : Text) : starLength? (.char '*' :: s) =
    if s.head? = some (.char '/') then none
    else if s.head? = some (.char ' ') then some 2
    else some 1 := by
  rw [starLength?.eq_def]
  split <;> simp_all [List.head?_eq_some_iff]

/-- Whether a margin ends is seen in its line. -/
lemma starLength?_append {s : Text} (hs : s ≠ []) (ls : List Text) :
    starLength? (s ++ afterBreaks ls) = starLength? s := by
  obtain ⟨c, s, rfl⟩ := List.exists_cons_of_ne_nil hs
  rw [List.cons_append]
  by_cases hc : c = '*'
  · rw [hc, starLength?_star, starLength?_star]
    cases s with
    | cons d s => rfl
    | nil =>
      cases ls with
      | nil => rfl
      | cons l ls => rfl
  · rw [starLength?_of_ne hc, starLength?_of_ne hc]

/-- White space at the start of a text belongs to a margin after it. -/
lemma marginLength?_blanks_append {gap : Text} (h : ∀ c ∈ gap, isBlank c = true) (s : Text) :
    marginLength? (gap ++ s) = (marginLength? s).map (gap.length + ·) := by
  rw [marginLength?_eq, marginLength?_eq, trimLeft, List.dropWhile_append_of_pos h, ← trimLeft,
    List.takeWhile_append_of_pos h, Option.map_map]
  simp [Function.comp_def, Nat.add_assoc]

lemma isBlankLine_iff {l : Text} : isBlankLine l = true ↔ ∀ c ∈ l, isBlank c = true :=
  List.all_eq_true

lemma isBlankLine_iff_trimLeft {l : Text} : isBlankLine l = true ↔ trimLeft l = [] := by
  rw [isBlankLine_iff, trimLeft, List.dropWhile_eq_nil_iff]

/-- In a line that is not blank, the margin is that of the line. -/
lemma marginLength?_line {l : Text} (h : isBlankLine l = false) (ls : List Text) :
    marginLength? (l ++ afterBreaks ls) = marginLength? l := by
  have hne : trimLeft l ≠ [] := by rwa [ne_eq, ← isBlankLine_iff_trimLeft, Bool.not_eq_true]
  have hcut : trimLeft (l ++ afterBreaks ls) = trimLeft l ++ afterBreaks ls := by
    rw [trimLeft, List.dropWhile_append, ← trimLeft, if_neg (by simpa using hne)]
  have htake : (l ++ afterBreaks ls).takeWhile isBlank = l.takeWhile isBlank := by
    apply (List.append_left_inj (trimLeft (l ++ afterBreaks ls))).1
    conv_rhs => rw [hcut, ← List.append_assoc]
    rw [trimLeft, trimLeft, List.takeWhile_append_dropWhile, List.takeWhile_append_dropWhile]
  rw [marginLength?_eq, marginLength?_eq, hcut, htake, starLength?_append hne]

/-- A blank line belongs to a margin in the lines after it. -/
lemma marginLength?_blankLine {l : Text} (h : isBlankLine l = true) (l' : Text) (ls : List Text) :
    marginLength? (l ++ afterBreaks (l' :: ls)) =
      (marginLength? (l' ++ afterBreaks ls)).map (l.length + 1 + ·) := by
  have hblanks : ∀ c ∈ l ++ [CodePoint.char '\n'], isBlank c = true := by
    intro c hc
    rcases List.mem_append.1 hc with hc | hc
    · exact isBlankLine_iff.1 h c hc
    · rw [List.mem_singleton.1 hc]
      decide
  rw [append_afterBreaks_cons, marginLength?_blanks_append hblanks, List.length_append,
    List.length_singleton]

/-- The first line that is not blank says whether there is a margin. -/
lemma leadsToMargin_eq (l : Text) (ls : List Text) :
    leadsToMargin (l :: ls) = (marginLength? (l ++ afterBreaks ls)).isSome := by
  induction ls generalizing l with
  | nil =>
    rw [leadsToMargin, afterBreaks, List.flatMap_nil, List.append_nil, marginLength?_eq,
      Option.isSome_map, hasMargin_eq]
    split
    · rename_i h
      rw [isBlankLine_iff_trimLeft.1 h]
      rfl
    · rfl
  | cons l' ls ih =>
    rw [leadsToMargin]
    split
    · rename_i h
      rw [ih, marginLength?_blankLine h, Option.isSome_map]
    · rename_i h
      rw [marginLength?_line (by simpa using h), marginLength?_eq, Option.isSome_map, hasMargin_eq]

/-! ### Dropping margins -/

lemma dropMarginsFrom_nil (skip : Nat) (start : Bool) : dropMarginsFrom skip start [] = [] := rfl

lemma dropMarginsFrom_inside (c : CodePoint) (s : Text) :
    dropMarginsFrom 0 false (c :: s) = c :: dropMarginsFrom 0 (c = '\n') s := rfl

-- by definition: unfolding the recursion on the text takes too long here
lemma dropMarginsFrom_start (c : CodePoint) (s : Text) : dropMarginsFrom 0 true (c :: s) =
    match marginLength? (c :: s) with
    | some n => dropMarginsFrom (n - 1) false s
    | none => c :: dropMarginsFrom 0 (c = '\n') s := by
  rfl

lemma dropMarginsFrom_skip (skip : Nat) (s : Text) :
    dropMarginsFrom skip false s = dropMarginsFrom 0 false (s.drop skip) := by
  induction s generalizing skip with
  | nil => cases skip <;> rfl
  | cons c s ih =>
    cases skip with
    | zero => rfl
    | succ skip => exact ih skip

lemma starLength?_bounds {s : Text} {n : Nat} (h : starLength? s = some n) :
    0 < n ∧ n ≤ s.length := by
  rw [starLength?.eq_def] at h
  split at h
  · cases h
  · cases h
    simp
  · cases h
    simp
  · cases h

lemma marginLength?_pos {s : Text} {n : Nat} (h : marginLength? s = some n) : 0 < n := by
  rw [marginLength?_eq] at h
  obtain ⟨k, hk, rfl⟩ := Option.map_eq_some_iff.1 h
  exact Nat.add_pos_right _ (starLength?_bounds hk).1

/-- The margin of a line is a part of it, and the rest is the line without its margin. -/
lemma withoutMargin_eq_drop {l : Text} {n : Nat} (h : marginLength? l = some n) :
    n ≤ l.length ∧ withoutMargin l = l.drop n := by
  rw [marginLength?_eq] at h
  obtain ⟨k, hk, rfl⟩ := Option.map_eq_some_iff.1 h
  have hcut : l = l.takeWhile isBlank ++ trimLeft l := (List.takeWhile_append_dropWhile ..).symm
  constructor
  · conv_rhs => rw [hcut, List.length_append]
    exact Nat.add_le_add_left (starLength?_bounds hk).2 _
  · have hdrop : l.drop ((l.takeWhile isBlank).length + k) = (trimLeft l).drop k := by
      conv_lhs => arg 2; rw [hcut]
      exact List.drop_length_add_append k
    rw [withoutMargin_eq, hk, hdrop]
    rfl

lemma withoutMargin_eq_self {l : Text} (h : marginLength? l = none) : withoutMargin l = l := by
  rw [marginLength?_eq, Option.map_eq_none_iff] at h
  rw [withoutMargin_eq, h]
  rfl

lemma withoutMargin_of_isBlankLine {l : Text} (h : isBlankLine l = true) : withoutMargin l = l := by
  rw [withoutMargin_eq, isBlankLine_iff_trimLeft.1 h]
  rfl

/-- At the start of a line, its margin is dropped. -/
lemma dropMargins_eq (s : Text) :
    dropMargins s = dropMarginsFrom 0 false (((marginLength? s).map s.drop).getD s) := by
  cases s with
  | nil => rfl
  | cons c s =>
    rw [dropMargins, dropMarginsFrom_start]
    cases hmargin : marginLength? (c :: s) with
    | none => rfl
    | some n =>
      obtain ⟨n, rfl⟩ := Nat.exists_eq_add_one.2 (marginLength?_pos hmargin)
      exact dropMarginsFrom_skip n s

/-- Inside of a line nothing is dropped. -/
lemma dropMarginsFrom_append {w : Text} (h : (.char '\n' : CodePoint) ∉ w) (s : Text) :
    dropMarginsFrom 0 false (w ++ s) = w ++ dropMarginsFrom 0 false s := by
  induction w with
  | nil => rfl
  | cons c w ih =>
    obtain ⟨hc, hw⟩ := not_or.1 (mt List.mem_cons.2 h)
    rw [List.cons_append, dropMarginsFrom_inside, decide_eq_false (Ne.symm hc), ih hw,
      List.cons_append]

lemma dropMarginsFrom_afterBreaks (l : Text) (ls : List Text) :
    dropMarginsFrom 0 false (afterBreaks (l :: ls)) =
      .char '\n' :: dropMargins (l ++ afterBreaks ls) := rfl

lemma notMem_withoutMargin {c : CodePoint} {l : Text} (h : c ∉ l) : c ∉ withoutMargin l := by
  cases hmargin : marginLength? l with
  | none => rwa [withoutMargin_eq_self hmargin]
  | some n =>
    rw [(withoutMargin_eq_drop hmargin).2]
    exact fun hmem => h ((List.drop_sublist n l).subset hmem)

/-- A line that does not go with the margin of another is there, without its own. -/
lemma dropMargins_line {l : Text} {ls : List Text} (hbreak : (.char '\n' : CodePoint) ∉ l)
    (hgap : isGap l ls = false) : dropMargins (l ++ afterBreaks ls) =
      withoutMargin l ++ dropMarginsFrom 0 false (afterBreaks ls) := by
  -- a margin found at the line is its own: a blank line that led to another would be a gap
  have hmargin : marginLength? (l ++ afterBreaks ls) = marginLength? l := by
    cases hblank : isBlankLine l with
    | false => exact marginLength?_line hblank ls
    | true =>
      rw [isGap, hblank, Bool.true_and] at hgap
      have hleads := leadsToMargin_eq l ls
      rw [leadsToMargin, if_pos hblank, hgap, eq_comm, Option.isSome_eq_false_iff,
        Option.isNone_iff_eq_none] at hleads
      rw [hleads, marginLength?_eq, isBlankLine_iff_trimLeft.1 hblank]
      rfl
  rw [dropMargins_eq, hmargin, ← dropMarginsFrom_append (notMem_withoutMargin hbreak)]
  cases hline : marginLength? l with
  | none => rw [withoutMargin_eq_self hline, Option.map_none, Option.getD_none]
  | some n =>
    obtain ⟨hle, hdrop⟩ := withoutMargin_eq_drop hline
    rw [hdrop, Option.map_some, Option.getD_some, List.drop_append_of_le_length hle]

/-- A blank line goes with the margin after it. -/
lemma dropMargins_gap {l l' : Text} {ls : List Text} (h : isGap l (l' :: ls) = true) :
    dropMargins (l ++ afterBreaks (l' :: ls)) = dropMargins (l' ++ afterBreaks ls) := by
  obtain ⟨hblank, hleads⟩ := (Bool.and_eq_true _ _).mp h
  rw [leadsToMargin_eq] at hleads
  obtain ⟨n, hn⟩ := Option.isSome_iff_exists.1 hleads
  rw [dropMargins_eq, dropMargins_eq, marginLength?_blankLine hblank, hn, append_afterBreaks_cons]
  simp only [Option.map_some, Option.getD_some]
  rw [← List.length_singleton (a := (.char '\n' : CodePoint)), ← List.length_append,
    List.drop_length_add_append]

lemma dropGaps_ne_nil (l : Text) (ls : List Text) : dropGaps (l :: ls) ≠ [] := by
  induction ls generalizing l with
  | nil => simp [dropGaps, isGap, leadsToMargin]
  | cons l' ls ih =>
    rw [dropGaps]
    split
    · exact ih l'
    · exact List.cons_ne_nil _ _

/-- Margins are dropped line by line, and blank lines right before a margin go with it. -/
theorem dropMargins_lines {l : Text} {ls : List Text}
    (h : ∀ x ∈ l :: ls, (.char '\n' : CodePoint) ∉ x) :
    dropMargins (joinWith "\n" (l :: ls)) =
      joinWith "\n" ((dropGaps (l :: ls)).map withoutMargin) := by
  rw [joinWith_cons]
  induction ls generalizing l with
  | nil =>
    have hgap : isGap l [] = false := Bool.and_false _
    rw [dropMargins_line (h l List.mem_cons_self) hgap, dropGaps, hgap, afterBreaks,
      List.flatMap_nil, dropMarginsFrom_nil, List.append_nil]
    rfl
  | cons l' ls ih =>
    have ih := ih fun x hx => h x (List.mem_cons_of_mem l hx)
    rw [dropGaps]
    cases hgap : isGap l (l' :: ls) with
    | true => rw [dropMargins_gap hgap, ih, if_pos rfl]
    | false =>
      rw [dropMargins_line (h l List.mem_cons_self) hgap, dropMarginsFrom_afterBreaks, ih]
      obtain ⟨x, xs, hx⟩ := List.exists_cons_of_ne_nil (dropGaps_ne_nil l' ls)
      simp [hx, joinWith_cons, afterBreaks]

/-! ### Lost line breaks -/

def hasText (line : Text) : Bool := ! isBlankLine (withoutMargin line)

/-- Blank lines right before a margin are followed by a line that has a text. -/
def EarlyGap (ls : List Text) : Prop :=
  ∃ before gap after, ls = before ++ gap :: after ∧ isGap gap after = true ∧
    ∃ l ∈ after, hasText l = true

/-- Blank lines right before a margin stand between lines that have a text. -/
def InnerGap (ls : List Text) : Prop :=
  ∃ before gap after, ls = before ++ gap :: after ∧ isGap gap after = true ∧
    (∃ l ∈ before, hasText l = true) ∧ ∃ l ∈ after, hasText l = true

/-- What lines show after those before them. -/
def shownAfter (ls : List Text) : Text := afterBreaks (ls.map withoutMargin)

lemma isBlankLine_iff_trimRight {l : Text} : isBlankLine l = true ↔ trimRight l = [] := by
  rw [isBlankLine_iff, trimRight, dropRightWhile_eq_nil_iff]

lemma hasText_of_isGap {l : Text} {ls : List Text} (h : isGap l ls = true) :
    hasText l = false := by
  obtain ⟨hblank, -⟩ := (Bool.and_eq_true _ _).mp h
  rw [hasText, withoutMargin_of_isBlankLine hblank, hblank, Bool.not_true]

lemma shownAfter_cons (l : Text) (ls : List Text) :
    shownAfter (l :: ls) = .char '\n' :: withoutMargin l ++ shownAfter ls := rfl

lemma trimRight_shownAfter (ls : List Text) :
    trimRight (shownAfter ls) = [] ↔ ∀ l ∈ ls, hasText l = false := by
  induction ls with
  | nil => exact iff_of_true rfl fun _ hl => (List.not_mem_nil hl).elim
  | cons l ls ih =>
    rw [← isBlankLine_iff_trimRight] at ih ⊢
    rw [shownAfter_cons, isBlankLine, List.all_append, List.all_cons, ← isBlankLine,
      ← isBlankLine, Bool.and_eq_true, ih, List.forall_mem_cons, hasText, Bool.not_eq_false']
    simp [show isBlank (.char '\n') = true by decide]

lemma dropGaps_sublist (ls : List Text) : (dropGaps ls).Sublist ls := by
  induction ls with
  | nil => exact .slnil
  | cons l ls ih =>
    rw [dropGaps]
    split
    · exact ih.cons l
    · exact ih.cons_cons l

/-- Dropping blank lines does not make more of a text. -/
lemma shownAfter_dropGaps_length_le (ls : List Text) :
    (trimRight (shownAfter (dropGaps ls))).length ≤ (trimRight (shownAfter ls)).length := by
  induction ls with
  | nil => exact le_rfl
  | cons l ls ih =>
    rw [dropGaps]
    split
    · exact ih.trans (trimRight_length_append _ _)
    · rw [shownAfter_cons, shownAfter_cons, trimRight_append, trimRight_append]
      have hle := trimRight_length_le (.char '\n' :: withoutMargin l)
      split <;> split <;> simp_all
      omega

lemma earlyGap_cons {l : Text} {ls : List Text} : EarlyGap (l :: ls) ↔
    (isGap l ls = true ∧ ∃ x ∈ ls, hasText x = true) ∨ EarlyGap ls := by
  constructor
  · rintro ⟨before, gap, after, hls, hgap, htext⟩
    rcases List.cons_eq_append_iff.1 hls with ⟨-, heq⟩ | ⟨before, -, rfl⟩
    · cases heq
      exact .inl ⟨hgap, htext⟩
    · exact .inr ⟨before, gap, after, rfl, hgap, htext⟩
  · rintro (⟨hgap, htext⟩ | ⟨before, gap, after, rfl, hgap, htext⟩)
    · exact ⟨[], l, ls, rfl, hgap, htext⟩
    · exact ⟨l :: before, gap, after, rfl, hgap, htext⟩

lemma innerGap_cons {l : Text} {ls : List Text} : InnerGap (l :: ls) ↔
    (hasText l = true ∧ EarlyGap ls) ∨ InnerGap ls := by
  constructor
  · rintro ⟨before, gap, after, hls, hgap, ⟨x, hx, hbefore⟩, hafter⟩
    rcases List.cons_eq_append_iff.1 hls with ⟨rfl, -⟩ | ⟨before, rfl, rfl⟩
    · cases hx
    · rcases List.mem_cons.1 hx with rfl | hx
      · exact .inl ⟨hbefore, before, gap, after, rfl, hgap, hafter⟩
      · exact .inr ⟨before, gap, after, rfl, hgap, ⟨x, hx, hbefore⟩, hafter⟩
  · rintro (⟨htext, before, gap, after, rfl, hgap, hafter⟩ |
      ⟨before, gap, after, rfl, hgap, ⟨x, hx, hbefore⟩, hafter⟩)
    · exact ⟨l :: before, gap, after, rfl, hgap, ⟨l, List.mem_cons_self, htext⟩, hafter⟩
    · exact ⟨l :: before, gap, after, rfl, hgap, ⟨x, List.mem_cons_of_mem l hx, hbefore⟩, hafter⟩

lemma InnerGap.early {ls : List Text} (h : InnerGap ls) : EarlyGap ls := by
  obtain ⟨before, gap, after, hls, hgap, -, hafter⟩ := h
  exact ⟨before, gap, after, hls, hgap, hafter⟩

/-- After a text, blank lines right before a margin are missed if a text follows them. -/
lemma trimRight_shownAfter_dropGaps (ls : List Text) :
    trimRight (shownAfter (dropGaps ls)) = trimRight (shownAfter ls) ↔ ¬ EarlyGap ls := by
  induction ls with
  | nil => exact iff_of_true rfl fun ⟨before, _, _, hls, _⟩ => by cases before <;> cases hls
  | cons l ls ih =>
    rw [dropGaps, earlyGap_cons]
    cases hgap : isGap l ls with
    | false =>
      rw [if_neg Bool.false_ne_true, shownAfter_cons, shownAfter_cons, trimRight_append_inj, ih]
      simp
    | true =>
      rw [if_pos rfl, shownAfter_cons]
      by_cases htext : ∃ x ∈ ls, hasText x = true
      · -- the blank line is between texts, so without it there is less
        have hne : trimRight (shownAfter ls) ≠ [] := by
          rw [ne_eq, trimRight_shownAfter]
          simpa using htext
        have hle := shownAfter_dropGaps_length_le ls
        refine iff_of_false (fun heq => ?_) (not_not_intro (.inl ⟨rfl, htext⟩))
        rw [trimRight_append, if_neg hne] at heq
        have hlength := congrArg List.length heq
        simp only [List.length_append, List.length_cons] at hlength
        omega
      · have hnone : ∀ x ∈ ls, hasText x = false := by simpa using htext
        have hline : ∀ x ∈ l :: ls, hasText x = false :=
          List.forall_mem_cons.2 ⟨hasText_of_isGap hgap, hnone⟩
        rw [(trimRight_shownAfter _).2 fun x hx => hnone x ((dropGaps_sublist ls).subset hx),
          ← shownAfter_cons, (trimRight_shownAfter _).2 hline]
        refine iff_of_true rfl ?_
        rintro (⟨-, h⟩ | ⟨before, gap, after, rfl, -, x, hx, h⟩)
        · exact htext h
        · exact htext ⟨x, List.mem_append_right _ (List.mem_cons_of_mem _ hx), h⟩

lemma trim_shownAfter_of_not {l : Text} (h : hasText l = false) (ls : List Text) :
    trim (shownAfter (l :: ls)) = trim (shownAfter ls) := by
  rw [hasText, Bool.not_eq_false'] at h
  rw [shownAfter_cons]
  exact trim_blanks_append (List.forall_mem_cons.2 ⟨by decide, isBlankLine_iff.1 h⟩) _

/-- Blank lines right before a margin are missed exactly between lines that have a text. -/
lemma trim_shownAfter_dropGaps (ls : List Text) :
    trim (shownAfter (dropGaps ls)) = trim (shownAfter ls) ↔ ¬ InnerGap ls := by
  induction ls with
  | nil => exact iff_of_true rfl fun ⟨before, _, _, hls, _⟩ => by cases before <;> cases hls
  | cons l ls ih =>
    rw [innerGap_cons]
    cases htext : hasText l with
    | false =>
      have hdrop : trim (shownAfter (dropGaps (l :: ls))) = trim (shownAfter (dropGaps ls)) := by
        rw [dropGaps]
        split
        · rfl
        · exact trim_shownAfter_of_not htext _
      rw [hdrop, trim_shownAfter_of_not htext, ih]
      simp
    | true =>
      -- from here on only the white space at the end is trimmed
      have hgap : isGap l ls = false := by
        by_contra h
        rw [hasText_of_isGap (by simpa using h)] at htext
        cases htext
      have hleft : trimLeft (.char '\n' :: withoutMargin l) ≠ [] := by
        rw [ne_eq, ← isBlankLine_iff_trimLeft, isBlankLine, List.all_cons, ← isBlankLine]
        rw [hasText, Bool.not_eq_true'] at htext
        simp [htext]
      rw [dropGaps, hgap, if_neg Bool.false_ne_true, shownAfter_cons, shownAfter_cons,
        trim_append_of_trimLeft_ne_nil hleft, trim_append_of_trimLeft_ne_nil hleft,
        trimRight_append_inj, trimRight_shownAfter_dropGaps]
      simp only [true_and]
      rw [or_iff_left_of_imp InnerGap.early]

lemma trim_joinWith {ls : List Text} (h : ls ≠ []) :
    trim (joinWith "\n" ls) = trim (afterBreaks ls) := by
  obtain ⟨l, ls, rfl⟩ := List.exists_cons_of_ne_nil h
  have hblank : ∀ c ∈ [CodePoint.char '\n'], isBlank c = true := by decide
  rw [joinWith_cons]
  exact (trim_blanks_append hblank (l ++ afterBreaks ls)).symm

/-- A comment that starts with a margin loses the margins of its lines, the blank lines right
before a margin and the white space at its ends. So it is its lines without their margins exactly
if no blank line between lines that have a text is right before a margin. -/
theorem asText_eq_lines_iff {s : Text} (h : (trimLeft s).head? = some (.char '*')) :
    asText (.text s) = trim (joinWith "\n" ((dropGaps (commentLines s)).map withoutMargin)) ∧
    (asText (.text s) = trim (joinWith "\n" ((commentLines s).map withoutMargin)) ↔
      ¬ InnerGap (commentLines s)) := by
  obtain ⟨l, ls, hls⟩ := List.exists_cons_of_ne_nil (splitWhere_ne_nil (· == .char '\n') s)
  have hlines : asText (.text s) =
      trim (joinWith "\n" ((dropGaps (commentLines s)).map withoutMargin)) := by
    have hjoin : joinWith "\n" (commentLines s) = s := joinWith_splitWhere (.char '\n') s
    have hbreak : ∀ x ∈ commentLines s, (.char '\n' : CodePoint) ∉ x :=
      fun x hx => notMem_of_mem_splitWhere hx
    rw [commentLines, hls] at hbreak hjoin
    have htext : asText (.text s) = plainText s := by simp [asText, Value.toText]
    rw [htext, plainText, if_pos h, commentLines, hls, ← dropMargins_lines hbreak, hjoin]
  refine ⟨hlines, ?_⟩
  rw [hlines, commentLines, hls, trim_joinWith (by simp [dropGaps_ne_nil]),
    trim_joinWith (by simp)]
  exact trim_shownAfter_dropGaps (l :: ls)

/-- Blank lines before the last margin and the first text, but not between texts. -/
theorem asText_eq_lines_iff_blankEnds :
    (trimLeft "\n * One.\n   Two.\n\n *").head? = some (.char '*') ∧
    (asText (.text "\n * One.\n   Two.\n\n *") = trim (joinWith "\n"
        ((dropGaps (commentLines "\n * One.\n   Two.\n\n *")).map withoutMargin)) ∧
      (asText (.text "\n * One.\n   Two.\n\n *") = trim (joinWith "\n"
        ((commentLines "\n * One.\n   Two.\n\n *").map withoutMargin)) ↔
        ¬ InnerGap (commentLines "\n * One.\n   Two.\n\n *"))) ∧
    asText (.text "\n * One.\n   Two.\n\n *") = "One.\n   Two." :=
  ⟨by decide, asText_eq_lines_iff (by decide), by decide⟩

/-- A blank line between two paragraphs is lost. -/
theorem blank_line_lost :
    (trimLeft "* One.\n\n* Two.").head? = some (.char '*') ∧
    asText (.text "* One.\n\n* Two.") = "One.\nTwo." ∧
    trim (joinWith "\n" ((commentLines "* One.\n\n* Two.").map withoutMargin)) =
      "One.\n\nTwo." := by
  decide

end ApiDocs.Comment
