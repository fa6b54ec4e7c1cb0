/-!
# Ranges of code points

A character property is given by the ascending list of the code point ranges that have it.
-/

namespace ApiDocs.Text

/-- Whether a code point lies in one of the ranges, whose ends are included. -/
def inRanges (n : Nat) : List (Nat × Nat) → Bool
  | [] => false
  | (lo, hi) :: rest => (lo ≤ n && n ≤ hi) || inRanges n rest

theorem inRanges_iff (n : Nat) (rs : List (Nat × Nat)) :
    inRanges n rs = true ↔ ∃ r ∈ rs, r.1 ≤ n ∧ n ≤ r.2 := by
  induction rs with
  | nil => simp [inRanges]
  | cons r rest ih => simp [inRanges, ih]

end ApiDocs.Text
