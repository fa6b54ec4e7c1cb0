import ApiDocs.Proofs.Cutting

/-!
# Laws of joining texts

What joining pieces with a separator keeps of them, when the pieces can be told from the text, and
what stands after the last separator.
-/

namespace ApiDocs.Text

/-! ### Joining pieces -/

lemma joinWith_eq_intercalate (sep : Text) (ws : List Text) :
    joinWith sep ws = sep.intercalate ws := by
  induction ws with
  | nil => rfl
  | cons w ws ih =>
    cases ws with
    | nil => simp [joinWith]
    | cons v ws => simp [joinWith, ih]

/-- Pieces without the separator can be told from what they are joined to. -/
lemma joinWith_inj {sep : CodePoint} {ws ws' : List Text} (hne : ws ≠ []) (hne' : ws' ≠ [])
    (h : ∀ w ∈ ws, sep ∉ w) (h' : ∀ w ∈ ws', sep ∉ w) :
    joinWith [sep] ws = joinWith [sep] ws' ↔ ws = ws' := by
  constructor
  · intro heq
    rw [joinWith_eq_intercalate, joinWith_eq_intercalate] at heq
    rw [← List.splitOn_intercalate sep h hne, heq, List.splitOn_intercalate sep h' hne']
  · exact congrArg _

/-- A code point of joined pieces is one of the separator or of a piece. -/
lemma mem_sep_or_of_mem_joinWith {sep : Text} {c : CodePoint} {ws : List Text}
    (h : c ∈ joinWith sep ws) : c ∈ sep ∨ ∃ w ∈ ws, c ∈ w := by
  induction ws with
  | nil => cases h
  | cons w ws ih =>
    cases ws with
    | nil => exact .inr ⟨w, List.mem_singleton_self _, h⟩
    | cons v ws =>
      rw [joinWith, List.mem_append, List.mem_append] at h
      · rcases h with (h | h) | h
        · exact .inr ⟨w, List.mem_cons_self .., h⟩
        · exact .inl h
        · obtain hsep | ⟨u, hu, hc⟩ := ih h
          · exact .inl hsep
          · exact .inr ⟨u, List.mem_cons_of_mem _ hu, hc⟩
      · simp

lemma mem_joinWith {sep c : CodePoint} {ws : List Text} (h : c ∈ joinWith [sep] ws) :
    c = sep ∨ ∃ w ∈ ws, c ∈ w :=
  (mem_sep_or_of_mem_joinWith h).imp_left List.mem_singleton.1

lemma mem_joinWith_of_mem {sep : Text} {c : CodePoint} {ws : List Text} {w : Text} (hw : w ∈ ws)
    (hc : c ∈ w) : c ∈ joinWith sep ws := by
  induction ws with
  | nil => cases hw
  | cons v ws ih =>
    cases ws with
    | nil => rwa [joinWith, ← List.mem_singleton.1 hw]
    | cons u ws =>
      rw [joinWith, List.mem_append, List.mem_append]
      · rcases List.mem_cons.1 hw with rfl | hw
        · exact .inl (.inl hc)
        · exact .inr (ih hw)
      · exact List.cons_ne_nil _ _

lemma joinWith_append (sep : Text) {ws ws' : List Text} (h : ws ≠ []) (h' : ws' ≠ []) :
    joinWith sep (ws ++ ws') = joinWith sep ws ++ sep ++ joinWith sep ws' := by
  obtain ⟨v, vs, rfl⟩ := List.exists_cons_of_ne_nil h'
  induction ws with
  | nil => exact absurd rfl h
  | cons w ws ih =>
    cases ws with
    | nil => simp [joinWith]
    | cons u us =>
      have hrest := ih (List.cons_ne_nil u us)
      simp only [List.cons_append, joinWith] at hrest ⊢
      simp [hrest]

/-- What is put at the end of the last piece stands at the end of the text. -/
lemma joinWith_concat_append (sep : Text) (ws : List Text) (w e : Text) :
    joinWith sep (ws ++ [w ++ e]) = joinWith sep (ws ++ [w]) ++ e := by
  by_cases h : ws = []
  · simp [h, joinWith]
  · rw [joinWith_append sep h (by simp), joinWith_append sep h (by simp)]
    simp [joinWith]

lemma exists_cons_joinWith (sep : Text) {ws : List Text} (hne : ws ≠ []) (h : ∀ w ∈ ws, w ≠ []) :
    ∃ c s, joinWith sep ws = c :: s ∧ ∃ w ∈ ws, c ∈ w := by
  obtain ⟨w, ws, rfl⟩ := List.exists_cons_of_ne_nil hne
  obtain ⟨c, s, rfl⟩ := List.exists_cons_of_ne_nil (h w (by simp))
  cases ws with
  | nil => exact ⟨c, s, rfl, c :: s, by simp, by simp⟩
  | cons v ws =>
    exact ⟨c, s ++ sep ++ joinWith sep (v :: ws), by simp [joinWith], c :: s, by simp, by simp⟩

lemma exists_concat_joinWith (sep : Text) {ws : List Text} (hne : ws ≠ []) (h : ∀ w ∈ ws, w ≠ []) :
    ∃ s c, joinWith sep ws = s ++ [c] ∧ ∃ w ∈ ws, c ∈ w := by
  obtain ⟨init, w, rfl⟩ := (List.eq_nil_or_concat' ws).resolve_left hne
  obtain ⟨s, c, rfl⟩ := (List.eq_nil_or_concat' w).resolve_left (h w (by simp))
  refine ⟨joinWith sep (init ++ [s]), c, joinWith_concat_append sep init s [c], s ++ [c], ?_, ?_⟩
  · simp
  · simp

lemma notMem_of_mem_splitWhere {sep : CodePoint} {s w : Text}
    (h : w ∈ splitWhere (· == sep) s) : sep ∉ w := by
  induction s generalizing w with
  | nil =>
    rw [splitWhere, List.mem_singleton] at h
    simp [h]
  | cons c s ih =>
    obtain ⟨v, vs, hv⟩ := List.exists_cons_of_ne_nil (splitWhere_ne_nil (· == sep) s)
    rw [splitWhere, hv] at h
    rw [hv] at ih
    split at h
    · rcases List.mem_cons.1 h with rfl | h
      · simp
      · exact ih h
    · rename_i hc
      rcases List.mem_cons.1 h with rfl | h
      · have hv : sep ∉ v := ih (List.mem_cons_self ..)
        simp only [beq_iff_eq] at hc
        simp [hv, Ne.symm hc]
      · exact ih (List.mem_cons_of_mem _ h)

/-- Cutting at a separator that is in none of the pieces gives the pieces back. -/
lemma splitWhere_joinWith {sep : CodePoint} {ws : List Text} (hne : ws ≠ [])
    (h : ∀ w ∈ ws, sep ∉ w) : splitWhere (· == sep) (joinWith [sep] ws) = ws := by
  rw [← joinWith_inj (splitWhere_ne_nil _ _) hne (fun _ => notMem_of_mem_splitWhere) h]
  exact joinWith_splitWhere sep _

/-! ### The last separator -/

/-- Of a text that ends after the last `d` in what the operation takes, this end is taken. -/
lemma takeRightWhile_append_seam {p : CodePoint → Bool} {d : CodePoint} (hd : p d = false)
    {t : Text} (ht : ∀ c ∈ t, p c = true) (s : Text) : takeRightWhile p (s ++ d :: t) = t := by
  have hreverse : (s ++ d :: t).reverse = t.reverse ++ d :: s.reverse := by simp
  rw [takeRightWhile, hreverse, takeWhile_append_seam hd, List.takeWhile_eq_self_iff.2,
    List.reverse_reverse]
  exact fun c hc => ht c (List.mem_reverse.1 hc)

lemma takeRightWhile_eq_self {p : CodePoint → Bool} {t : Text} (h : ∀ c ∈ t, p c = true) :
    takeRightWhile p t = t := by
  rw [takeRightWhile, List.takeWhile_eq_self_iff.2, List.reverse_reverse]
  exact fun c hc => h c (List.mem_reverse.1 hc)

lemma bne_of_mem {sep : CodePoint} {t : Text} (h : sep ∉ t) : ∀ c ∈ t, (c != sep) = true := by
  intro c hc
  rw [bne_iff_ne]
  rintro rfl
  exact h hc

lemma afterLast_append {sep : CodePoint} {t : Text} (h : sep ∉ t) (s : Text) :
    afterLast sep (s ++ sep :: t) = t :=
  takeRightWhile_append_seam (by simp) (bne_of_mem h) s

lemma afterLast_of_notMem {sep : CodePoint} {t : Text} (h : sep ∉ t) : afterLast sep t = t :=
  takeRightWhile_eq_self (bne_of_mem h)

/-- The last separator cuts a text in one way. -/
lemma append_sep_inj {sep : CodePoint} {s s' t t' : Text} (ht : sep ∉ t) (ht' : sep ∉ t') :
    s ++ sep :: t = s' ++ sep :: t' ↔ s = s' ∧ t = t' := by
  constructor
  · intro h
    have hafter : t = t' := by rw [← afterLast_append ht s, h, afterLast_append ht']
    subst hafter
    exact ⟨List.append_cancel_right h, rfl⟩
  · rintro ⟨rfl, rfl⟩
    rfl

/-- After the last separator of joined pieces stands the last one. -/
lemma afterLast_joinWith {sep : CodePoint} {w : Text} (h : sep ∉ w) (ws : List Text) :
    afterLast sep (joinWith [sep] (ws ++ [w])) = w := by
  by_cases hws : ws = []
  · rw [hws]
    exact afterLast_of_notMem h
  · rw [joinWith_append [sep] hws (List.cons_ne_nil w []), List.append_assoc,
      List.singleton_append]
    exact afterLast_append h _

end ApiDocs.Text
