import ApiDocs.Sorting
import Mathlib.Data.List.Perm.Basic

/-!
# Laws of sorting

Names have one ascending order, so sorting them forgets in which order they came. A list that is
already in ascending order of elements that only equal ones are level with is what sorting gives.
-/

namespace ApiDocs

/-! ### The order of names -/

instance : Std.Irrefl (· < · : CodePoint → CodePoint → Prop) := ⟨fun a => Nat.lt_irrefl a.toNat⟩

instance : Std.Asymm (· < · : CodePoint → CodePoint → Prop) := ⟨fun _ _ h => Nat.lt_asymm h⟩

instance : Trans (· < · : CodePoint → CodePoint → Prop) (· < ·) (· < ·) :=
  ⟨fun h h' => Nat.lt_trans h h'⟩

instance : Std.Trichotomous (· < · : CodePoint → CodePoint → Prop) :=
  ⟨fun _ _ h h' => CodePoint.toNat_inj.1 (Nat.le_antisymm (Nat.not_lt.1 h') (Nat.not_lt.1 h))⟩

namespace Text

lemma le_trans {a b c : Text} (h : a ≤ b) (h' : b ≤ c) : a ≤ c := by
  rcases List.le_iff_lt_or_eq.1 h with hab | rfl
  · rcases List.le_iff_lt_or_eq.1 h' with hbc | rfl
    · exact List.le_of_lt (List.lt_trans hab hbc)
    · exact h
  · exact h'

lemma lt_of_le_of_ne {a b : Text} (h : a ≤ b) (hne : a ≠ b) : a < b :=
  (List.le_iff_lt_or_eq.1 h).resolve_right hne

end Text

/-! ### Sorted names -/

lemma sortNames_perm (names : List Text) : (sortNames names).Perm names := sortBy_perm _ names

@[simp] lemma mem_sortNames {names : List Text} {n : Text} : n ∈ sortNames names ↔ n ∈ names :=
  (sortNames_perm names).mem_iff

lemma sortNames_ascending (names : List Text) : (sortNames names).Pairwise (· ≤ ·) := by
  have total (a b : Text) : (decide (a ≤ b) || decide (b ≤ a)) = true := by
    simpa using List.le_total a b
  have trans (a b c : Text) : decide (a ≤ b) → decide (b ≤ c) → decide (a ≤ c) := by
    simpa using Text.le_trans
  exact (sortBy_pairwise total trans names).imp fun h => of_decide_eq_true h

/-- Distinct names stand in strictly ascending order. -/
lemma sortNames_strict {names : List Text} (h : names.Nodup) :
    (sortNames names).Pairwise (· < ·) :=
  ((sortNames_ascending names).and ((sortNames_perm names).nodup_iff.2 h)).imp fun hab =>
    Text.lt_of_le_of_ne hab.1 hab.2

/-- Sorting forgets in which order names came. -/
lemma sortNames_congr {as bs : List Text} (h : as.Perm bs) : sortNames as = sortNames bs :=
  List.Perm.eq_of_pairwise (fun _ _ _ _ hab hba => List.le_antisymm hab hba)
    (sortNames_ascending as) (sortNames_ascending bs)
    ((sortNames_perm as).trans (h.trans (sortNames_perm bs).symm))

lemma nodup_of_ascending {names : List Text} (h : names.Pairwise (· < ·)) : names.Nodup := by
  refine h.imp fun {a b} hab => ?_
  rintro rfl
  exact List.lt_irrefl _ hab

/-- A strictly ascending list is determined by its members. -/
lemma ascending_ext {as bs : List Text} (ha : as.Pairwise (· < ·)) (hb : bs.Pairwise (· < ·))
    (h : ∀ n, n ∈ as ↔ n ∈ bs) : as = bs := by
  have hperm : as.Perm bs :=
    (List.perm_ext_iff_of_nodup (nodup_of_ascending ha) (nodup_of_ascending hb)).2 h
  exact List.Perm.eq_of_pairwise (fun _ _ _ _ hab hba => absurd hba (List.lt_asymm hab)) ha hb hperm

/-! ### Sorting by a Boolean order -/

lemma insertSorted_map {α β : Type} (le : β → β → Bool) (f : α → β) (a : α) (bs : List α) :
    (insertSorted (fun a b => le (f a) (f b)) a bs).map f =
      insertSorted le (f a) (bs.map f) := by
  induction bs with
  | nil => rfl
  | cons b bs ih =>
    simp only [insertSorted, List.map_cons]
    split
    · rfl
    · rw [List.map_cons, ih]

/-- Elements are sorted by what they are mapped to. -/
lemma sortBy_map {α β : Type} (le : β → β → Bool) (f : α → β) (as : List α) :
    (sortBy (fun a b => le (f a) (f b)) as).map f = sortBy le (as.map f) := by
  induction as with
  | nil => rfl
  | cons a as ih => rw [sortBy, insertSorted_map, ih, List.map_cons, sortBy]

lemma insertSorted_congr {α : Type} {le le' : α → α → Bool} {a : α} {bs : List α}
    (h : ∀ b ∈ bs, le a b = le' a b) : insertSorted le a bs = insertSorted le' a bs := by
  induction bs with
  | nil => rfl
  | cons b bs ih =>
    obtain ⟨hb, hbs⟩ := List.forall_mem_cons.1 h
    rw [insertSorted, insertSorted, hb, ih hbs]

/-- Only the order among the elements counts. -/
lemma sortBy_congr {α : Type} {le le' : α → α → Bool} {as : List α}
    (h : ∀ a ∈ as, ∀ b ∈ as, le a b = le' a b) : sortBy le as = sortBy le' as := by
  induction as with
  | nil => rfl
  | cons a as ih =>
    rw [sortBy, sortBy, ih fun b hb c hc => h b (.tail _ hb) c (.tail _ hc)]
    refine insertSorted_congr fun b hb => h a (.head _) b (.tail _ ?_)
    exact (sortBy_perm le' as).mem_iff.1 hb

/-- A list in ascending order stays as it is. -/
lemma sortBy_eq_self {α : Type} {le : α → α → Bool} {as : List α}
    (h : as.Pairwise (fun a b => le a b = true)) : sortBy le as = as := by
  induction h with
  | nil => rfl
  | @cons a as ha _ ih =>
    rw [sortBy, ih]
    cases as with
    | nil => rfl
    | cons b bs => rw [insertSorted, if_pos (ha b (.head _))]

/-- Sorting gives any ascending arrangement in which level elements are equal. -/
lemma sortBy_eq_of_ascending {α : Type} {le : α → α → Bool} {as bs : List α}
    (total : ∀ a b, le a b || le b a) (trans : ∀ a b c, le a b → le b c → le a c)
    (level : ∀ a ∈ as, ∀ b ∈ as, le a b → le b a → a = b)
    (hperm : bs.Perm as) (hasc : bs.Pairwise (fun a b => le a b = true)) :
    sortBy le as = bs := by
  refine List.Perm.eq_of_pairwise (fun a b ha hb hab hba => ?_) (sortBy_pairwise total trans as)
    hasc ((sortBy_perm le as).trans hperm.symm)
  exact level a ((sortBy_perm le as).mem_iff.1 ha) b (hperm.mem_iff.1 hb) hab hba

end ApiDocs
