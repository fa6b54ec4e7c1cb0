import ApiDocs.Page.Target
import ApiDocs.Proofs.Joining
import ApiDocs.Proofs.Table

/-!
# Anchors of headings

Headings with one slug are told apart by a number, so no two of them have the same anchor. Anchors
of different slugs meet in one way only: where a slug ends like an anchor with a number, the first
heading with that slug has the anchor of a later heading with the other one.
-/

namespace ApiDocs

open Text

namespace Text

/-! ### Numbers -/

lemma natural_injective : Function.Injective natural := by
  intro a b h
  have hdigits : Nat.toDigits 10 a = Nat.toDigits 10 b :=
    List.map_injective_iff.2 (fun _ _ hc => CodePoint.char.inj hc) h
  simpa using congrArg (Nat.ofDigitChars 10 · 0) hdigits

lemma isDigit_of_mem_natural {n : Nat} {c : CodePoint} (h : c ∈ natural n) : isDigit c = true := by
  obtain ⟨d, hd, rfl⟩ := List.mem_map.1 h
  exact Nat.isDigit_of_mem_toDigits (by decide) (by decide) hd

end Text

/-! ### Slugs -/

namespace Markdown

lemma mem_collapseRuns {p : CodePoint → Bool} {mark : CodePoint} {inRun : Bool} {s : Text}
    {c : CodePoint} (h : c ∈ collapseRuns p mark inRun s) : c = mark ∨ p c = false := by
  induction s generalizing inRun with
  | nil => cases h
  | cons d s ih =>
    rw [collapseRuns] at h
    split at h
    · rcases List.mem_append.1 h with h | h
      · left
        split at h
        · cases h
        · exact List.mem_singleton.1 h
      · exact ih h
    · rename_i hd
      rcases List.mem_cons.1 h with rfl | h
      · exact .inr (by simpa using hd)
      · exact ih h

lemma trimDashes_sublist (s : Text) : (trimDashes s).Sublist s := by
  have hright (t : Text) : (dropRightWhile (· == '-') t).Sublist t := by
    rw [dropRightWhile]
    simpa using (List.dropWhile_sublist (l := t.reverse) (· == .char '-')).reverse
  exact (hright _).trans (List.dropWhile_sublist _)

/-- A slug is made of lower-case letters, digits and dashes. -/
lemma isAnchorChar_of_mem_slug {s : Text} {c : CodePoint} (h : c ∈ slug s) :
    isAnchorChar c = true ∨ c = '-' := by
  rw [slug] at h
  split at h
  · revert h c
    decide
  · rcases mem_collapseRuns ((trimDashes_sublist _).subset h) with hmark | hchar
    · exact .inr hmark
    · exact .inl (by simpa using hchar)

end Markdown

/-! ### Numbered slugs -/

lemma numberedSlug_zero (slug : Text) : numberedSlug slug 0 = slug := rfl

lemma numberedSlug_of_pos (slug : Text) {n : Nat} (h : 0 < n) :
    numberedSlug slug n = slug ++ .char '-' :: natural n := by
  rw [numberedSlug, if_neg (Nat.ne_of_gt h), List.append_assoc]
  rfl

lemma numberedSlug_ne (slug : Text) {n : Nat} (h : 0 < n) : numberedSlug slug n ≠ slug := by
  intro heq
  have hlength := congrArg List.length heq
  simp [numberedSlug_of_pos slug h] at hlength

lemma dash_notMem_natural (n : Nat) : CodePoint.char '-' ∉ natural n := fun h =>
  absurd (isDigit_of_mem_natural h) (by decide)

/-- Anchors are equal if slug and number are, or if one is the other with a number. -/
lemma numberedSlug_eq_iff {slug slug' : Text} {n n' : Nat} :
    numberedSlug slug n = numberedSlug slug' n' ↔
      (slug = slug' ∧ n = n') ∨ (0 < n ∧ n' = 0 ∧ slug' = numberedSlug slug n) ∨
        (0 < n' ∧ n = 0 ∧ slug = numberedSlug slug' n') := by
  rcases Nat.eq_zero_or_pos n with rfl | hn
  · rcases Nat.eq_zero_or_pos n' with rfl | hn'
    · simp [numberedSlug_zero]
    · simp [numberedSlug_zero, hn', Nat.ne_of_lt hn']
  · rcases Nat.eq_zero_or_pos n' with rfl | hn'
    · simp [numberedSlug_zero, hn, Nat.ne_of_gt hn, eq_comm]
    · simp only [Nat.ne_of_gt hn, Nat.ne_of_gt hn', false_and, and_false, or_false]
      rw [numberedSlug_of_pos slug hn, numberedSlug_of_pos slug' hn',
        append_sep_inj (dash_notMem_natural n) (dash_notMem_natural n'), natural_injective.eq_iff]

/-- The number tells headings with one slug apart. -/
lemma numberedSlug_inj {slug : Text} {n n' : Nat} :
    numberedSlug slug n = numberedSlug slug n' ↔ n = n' := by
  rw [numberedSlug_eq_iff]
  constructor
  · rintro (⟨-, h⟩ | ⟨hpos, -, h⟩ | ⟨hpos, -, h⟩)
    · exact h
    · exact absurd h.symm (numberedSlug_ne slug hpos)
    · exact absurd h.symm (numberedSlug_ne slug hpos)
  · exact fun h => .inl ⟨rfl, h⟩

lemma hash_notMem_anchor (s : Text) (n : Nat) :
    CodePoint.char '#' ∉ numberedSlug (Markdown.slug s) n := by
  have hslug : CodePoint.char '#' ∉ Markdown.slug s := fun h =>
    (Markdown.isAnchorChar_of_mem_slug h).elim (absurd · (by decide)) (absurd · (by decide))
  rcases Nat.eq_zero_or_pos n with rfl | hn
  · exact hslug
  · rw [numberedSlug_of_pos _ hn, List.mem_append, List.mem_cons]
    rintro (h | h | h)
    · exact hslug h
    · exact absurd h (by decide)
    · exact absurd (isDigit_of_mem_natural h) (by decide)

/-! ### Numbering repetitions -/

section

variable {α κ : Type} [DecidableEq κ] (key : α → κ)

/-- The elements of a list, each with the number of those before it that have its key. -/
def repeats (before : List α) : List α → List (Nat × α)
  | [] => []
  | a :: as => (before.countP (key · = key a), a) :: repeats (before ++ [a]) as

variable {key}

lemma mem_repeats_iff {before as : List α} {p : Nat × α} :
    p ∈ repeats key before as ↔
      ∃ l r, as = l ++ p.2 :: r ∧ p.1 = (before ++ l).countP (key · = key p.2) := by
  induction as generalizing before with
  | nil => simp [repeats]
  | cons a as ih =>
    rw [repeats, List.mem_cons, ih]
    constructor
    · rintro (rfl | ⟨l, r, rfl, hnumber⟩)
      · exact ⟨[], as, rfl, by rw [List.append_nil]⟩
      · exact ⟨a :: l, r, rfl, by rw [hnumber, List.append_assoc]; rfl⟩
    · rintro ⟨l, r, has, hnumber⟩
      cases l with
      | nil =>
        cases has
        exact .inl (Prod.ext (by rw [hnumber, List.append_nil]) rfl)
      | cons b l =>
        cases has
        exact .inr ⟨l, r, rfl, by rw [hnumber, List.append_assoc]; rfl⟩

lemma mem_of_mem_repeats {before as : List α} {p : Nat × α} (h : p ∈ repeats key before as) :
    p.2 ∈ as := by
  obtain ⟨l, r, rfl, -⟩ := mem_repeats_iff.1 h
  simp

variable (key) in
lemma exists_mem_repeats (before : List α) {as : List α} {a : α} (h : a ∈ as) :
    ∃ n, (n, a) ∈ repeats key before as := by
  obtain ⟨l, r, has⟩ := List.append_of_mem h
  exact ⟨(before ++ l).countP (key · = key a), mem_repeats_iff.2 ⟨l, r, has, rfl⟩⟩

variable (key) in
lemma repeats_append (before as bs : List α) :
    repeats key before (as ++ bs) = repeats key before as ++ repeats key (before ++ as) bs := by
  induction as generalizing before with
  | nil => simp [repeats]
  | cons a as ih => simp [repeats, ih]

lemma length_repeats (before as : List α) : (repeats key before as).length = as.length := by
  induction as generalizing before with
  | nil => rfl
  | cons a as ih => rw [repeats, List.length_cons, List.length_cons, ih]

lemma le_of_mem_repeats {before as : List α} {p : Nat × α} (h : p ∈ repeats key before as) :
    before.countP (key · = key p.2) ≤ p.1 := by
  obtain ⟨l, -, -, hnumber⟩ := mem_repeats_iff.1 h
  rw [hnumber, List.countP_append]
  exact Nat.le_add_right ..

/-- Elements with one key have different numbers. -/
lemma eq_of_mem_repeats {before as : List α} {p q : Nat × α} (hp : p ∈ repeats key before as)
    (hq : q ∈ repeats key before as) (hkey : key p.2 = key q.2) (hnumber : p.1 = q.1) :
    p = q := by
  induction as generalizing before with
  | nil => cases hp
  | cons a as ih =>
    -- the number of an element of the rest counts the head too
    have hlater {x : Nat × α} (hx : x ∈ repeats key (before ++ [a]) as) (hxa : key x.2 = key a) :
        before.countP (key · = key a) < x.1 := by
      have hle := le_of_mem_repeats hx
      simp only [List.countP_append, hxa, List.countP_singleton, decide_true, if_true] at hle
      omega
    rw [repeats, List.mem_cons] at hp hq
    rcases hp with rfl | hp
    · rcases hq with rfl | hq
      · rfl
      · exact absurd hnumber (Nat.ne_of_lt (hlater hq hkey.symm))
    · rcases hq with rfl | hq
      · exact absurd hnumber (Nat.ne_of_gt (hlater hp hkey))
      · exact ih hp hq

end

/-! ### The anchors in use -/

namespace Anchors

/-- How often a slug was used on a page. -/
def count (used : Anchors) (page slug : Text) : Nat :=
  (((used.get? page).getD .empty).get? slug).getD 0

lemma next_fst (used : Anchors) (page heading : Text) :
    (used.next page heading).1 =
      numberedSlug (Markdown.slug heading) (used.count page (Markdown.slug heading)) := rfl

lemma count_next (used : Anchors) (page heading page' slug : Text) :
    (used.next page heading).2.count page' slug =
      used.count page' slug +
        if page = page' ∧ Markdown.slug heading = slug then 1 else 0 := by
  rw [count, next, Table.get?_put]
  by_cases hpage : page' = page
  · subst hpage
    rw [if_pos rfl, Option.getD_some, Table.get?_put]
    by_cases hslug : slug = Markdown.slug heading
    · subst hslug
      simp [count]
    · simp [count, hslug, Ne.symm hslug]
  · simp [count, hpage, Ne.symm hpage]

end Anchors

end ApiDocs
