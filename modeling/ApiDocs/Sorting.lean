import ApiDocs.Text

/-!
# Stable sorting

Insertion sort by a Boolean order. Elements that are below one another keep their order.
-/

namespace ApiDocs

variable {α : Type}

/-- Insert an element before the first one that it is below. -/
def insertSorted (le : α → α → Bool) (a : α) : List α → List α
  | [] => [a]
  | b :: bs => if le a b then a :: b :: bs else b :: insertSorted le a bs

/-- The elements in ascending order; equal ones keep their order. -/
def sortBy (le : α → α → Bool) : List α → List α
  | [] => []
  | a :: as => insertSorted le a (sortBy le as)

/-- Names in ascending order of their code points. -/
def sortNames (names : List Text) : List Text := sortBy (fun a b => decide (a ≤ b)) names

theorem insertSorted_perm (le : α → α → Bool) (a : α) (bs : List α) :
    (insertSorted le a bs).Perm (a :: bs) := by
  induction bs with
  | nil => exact .refl _
  | cons b bs ih =>
    simp only [insertSorted]
    split
    · exact .refl _
    · exact (ih.cons b).trans (.swap a b bs)

/-- Sorting loses and adds nothing. -/
theorem sortBy_perm (le : α → α → Bool) (as : List α) : (sortBy le as).Perm as := by
  induction as with
  | nil => exact .refl _
  | cons a as ih => exact (insertSorted_perm le a _).trans (ih.cons a)

theorem insertSorted_pairwise {le : α → α → Bool} (total : ∀ a b, le a b || le b a)
    (trans : ∀ a b c, le a b → le b c → le a c) (a : α) (bs : List α)
    (h : bs.Pairwise (fun x y => le x y = true)) :
    (insertSorted le a bs).Pairwise (fun x y => le x y = true) := by
  induction bs with
  | nil => simp [insertSorted]
  | cons b bs ih =>
    simp only [insertSorted]
    have hb := List.pairwise_cons.1 h
    split
    · rename_i hab
      refine List.pairwise_cons.2 ⟨fun x hx => ?_, h⟩
      rcases List.mem_cons.1 hx with rfl | hx
      · exact hab
      · exact trans a b x hab (hb.1 x hx)
    · rename_i hab
      refine List.pairwise_cons.2 ⟨fun x hx => ?_, ih hb.2⟩
      rcases List.mem_cons.1 ((insertSorted_perm le a bs).mem_iff.1 hx) with rfl | hx
      · simpa [hab] using total x b
      · exact hb.1 x hx

/-- Sorting by a total order puts the elements in ascending order. -/
theorem sortBy_pairwise {le : α → α → Bool} (total : ∀ a b, le a b || le b a)
    (trans : ∀ a b c, le a b → le b c → le a c) (as : List α) :
    (sortBy le as).Pairwise (fun x y => le x y = true) := by
  induction as with
  | nil => simp [sortBy]
  | cons a as ih => exact insertSorted_pairwise total trans a _ ih

end ApiDocs
