import ApiDocs.Proofs.Cutting
import ApiDocs.Text.Case

/-!
# Laws of lower-casing

White space and underscores stay in lower case, and neither a space nor an underscore comes out of
another character.
-/

namespace ApiDocs.Text

/-- White space and the underscore have no letter case. -/
lemma mapPoint_lowerChar {c : CodePoint} (h : c = '_' ∨ isBlank c = true) :
    mapPoint lowerChar c = [c] := by
  rcases h with rfl | h
  · rfl
  · have hblanks : ∀ r ∈ blankRanges, ∀ i < r.2 + 1 - r.1,
        (CodePoint.char (Char.ofNat (r.1 + i))).toNat = r.1 + i ∧
          mapPoint lowerChar (.char (Char.ofNat (r.1 + i))) = [.char (Char.ofNat (r.1 + i))] := by
      decide +kernel
    obtain ⟨r, hr, hle, hge⟩ := (inRanges_iff _ _).1 (isBlank_iff.1 h)
    obtain ⟨hnumber, hlower⟩ := hblanks r hr (c.toNat - r.1) (by omega)
    rw [Nat.add_sub_cancel' hle, CodePoint.toNat_inj] at hnumber
    rwa [Nat.add_sub_cancel' hle, hnumber] at hlower

/-- A map that takes the runs to large numbers takes no large number to a small one. -/
lemma le_shiftCase {k n : Nat} {runs : List CaseRun} (hn : k ≤ n)
    (hruns : ∀ r ∈ runs, (k : Int) ≤ r.1 + r.2.2.2) : k ≤ shiftCase n runs := by
  induction runs with
  | nil => exact hn
  | cons r runs ih =>
    obtain ⟨first, last, step, shift⟩ := r
    obtain ⟨hfirst, hruns⟩ := List.forall_mem_cons.1 hruns
    rw [shiftCase]
    split
    · rename_i hin
      simp only [Bool.and_eq_true, decide_eq_true_eq] at hin hfirst
      omega
    · exact ih hruns

lemma toNat_ofNat_eq_or (n : Nat) : (Char.ofNat n).toNat = n ∨ (Char.ofNat n).toNat = 0 := by
  by_cases hvalid : n.isValidChar
  · left
    rw [Char.ofNat, dif_pos hvalid]
    rfl
  · right
    rw [Char.ofNat, dif_neg hvalid]
    rfl

/-- No other character is mapped to the space or to the underscore. -/
lemma eq_of_mem_lowerChar {c d : Char} (hd : d = '_' ∨ d = ' ') (h : d ∈ lowerChar c) : c = d := by
  rw [lowerChar] at h
  split at h
  · rename_i hascii
    have hletters : ∀ n < 128, ((Char.ofNat n).toLower = '_' → Char.ofNat n = '_') ∧
        ((Char.ofNat n).toLower = ' ' → Char.ofNat n = ' ') := by
      decide
    obtain ⟨hunderscore, hspace⟩ := hletters c.toNat hascii
    rw [Char.ofNat_toNat] at hunderscore hspace
    have hlower := (List.mem_singleton.1 h).symm
    rcases hd with rfl | rfl
    · exact hunderscore hlower
    · exact hspace hlower
  · rename_i hascii
    split at h
    · rcases hd with rfl | rfl <;> cases h <;> contradiction
    · have hlarge : 97 ≤ shiftCase c.toNat lowerRuns :=
        le_shiftCase (by omega) (by decide +kernel)
      have hsmall : d.toNat = 95 ∨ d.toNat = 32 :=
        hd.imp (congrArg Char.toNat) (congrArg Char.toNat)
      rw [List.mem_singleton.1 h] at hsmall
      rcases toNat_ofNat_eq_or (shiftCase c.toNat lowerRuns) with hkept | hzero <;> omega

section

variable {before w : Text} {c : CodePoint}

/-- White space and underscores are still there in lower case. -/
lemma mem_lowerFrom (h : c = '_' ∨ isBlank c = true) (hc : c ∈ w) : c ∈ lowerFrom before w := by
  induction w generalizing before with
  | nil => cases hc
  | cons c' w ih =>
    rw [lowerFrom, List.mem_append]
    rcases List.mem_cons.1 hc with rfl | hc
    · left
      have hsigma : c ≠ 'Σ' := by
        rintro rfl
        revert h
        decide
      rw [if_neg hsigma, mapPoint_lowerChar h]
      exact List.mem_singleton_self c
    · exact .inr (ih hc)

/-- Spaces and underscores in lower case were there before. -/
lemma mem_of_mem_lowerFrom {d : Char} (hd : d = '_' ∨ d = ' ') (h : .char d ∈ lowerFrom before w) :
    .char d ∈ w := by
  induction w generalizing before with
  | nil => cases h
  | cons c w ih =>
    rw [lowerFrom, List.mem_append] at h
    rcases h with h | h
    · split at h
      · rcases hd with rfl | rfl <;> split at h <;> simp at h
      · cases c with
        | char c =>
          rw [mapPoint, ofChars, List.mem_map_of_injective (fun _ _ => CodePoint.char.inj)] at h
          rw [eq_of_mem_lowerChar hd h]
          exact List.mem_cons_self ..
        | surrogate k => simp [mapPoint] at h
    · exact List.mem_cons_of_mem _ (ih h)

end

end ApiDocs.Text
