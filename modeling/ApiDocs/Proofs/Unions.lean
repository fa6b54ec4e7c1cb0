import ApiDocs.Proofs.Keys
import ApiDocs.Proofs.Sorting
import Mathlib.Data.Prod.Lex

/-!
# Sorted unions

The union of two lists has each scalar of either once, in ascending order. There is one exactly if
the scalars can be compared: if they are one key, or all of them are texts, or all are numbers. Only
what is not a number has no place in the order. Where it is, the union is some arrangement of the
numbers, and the union of that with nothing may be another one.
-/

namespace ApiDocs.Value

/-! ### The order of scalars -/

/-- Whether one class comes before another: numbers by their values, texts by their code points. -/
def KeyClass.Precedes : KeyClass → KeyClass → Prop
  | number s x, number t y => s < t ∨ s = t ∧ x < y
  | text s, text t => s < t
  | _, _ => False

/-- Whether a scalar comes before another one. -/
def Precedes (v w : Value) : Prop :=
  ∃ a b, v.keyClass? = some a ∧ w.keyClass? = some b ∧ a.Precedes b

@[simp] lemma text_precedes_text {s t : Text} : (text s).Precedes (text t) ↔ s < t := by
  simp [Precedes, keyClass?, KeyClass.Precedes]

/-- The rank of a number: the side of infinity on which it lies, and its value. -/
def rank (v : Value) : ℤ ×ₗ ℚ :=
  match v.keyClass? with
  | some (.number s x) => toLex (s, x)
  | _ => toLex (0, 0)

lemma text?_eq_some {v : Value} {s : Text} : v.text? = some s ↔ v = text s := by
  cases v <;> simp [text?]

lemma isSome_text?_iff {v : Value} : v.text?.isSome = true ↔ ∃ s, v.keyClass? = some (.text s) := by
  cases v with
  | float x => simp [text?, keyClass?, floatClass_ne_text]
  | null | bool _ | int _ | text _ | list _ | map _ => simp [text?, keyClass?]

lemma isSome_numberKey?_iff {v : Value} :
    v.numberKey?.isSome = true ↔ ∃ s x, v.keyClass? = some (.number s x) := by
  cases v with
  | float x => cases x <;> simp [numberKey?, keyClass?, floatClass]
  | null | bool _ | int _ | text _ | list _ | map _ => simp [numberKey?, keyClass?]

lemma keyClass?_eq_notANumber {v : Value} : v.keyClass? = some .notANumber ↔ v = float .nan := by
  cases v with
  | float x => cases x <;> simp [keyClass?, floatClass]
  | null | bool _ | int _ | text _ | list _ | map _ => simp [keyClass?]

/-- Only what is not a number can be compared with numbers and has no place among them. -/
lemma isNumeric_iff {v : Value} :
    v.isNumeric = true ↔ v.numberKey?.isSome = true ∨ v = float .nan := by
  cases v with
  | float x => cases x <;> simp [isNumeric, numberKey?]
  | null | bool _ | int _ | text _ | list _ | map _ => simp [isNumeric, numberKey?]

lemma isSome_text?_congr {v w : Value} (h : v.sameKey w = true) :
    v.text?.isSome = w.text?.isSome := by
  rw [Bool.eq_iff_iff, isSome_text?_iff, isSome_text?_iff, (sameKey_iff.1 h).2]

lemma isNumeric_congr {v w : Value} (h : v.sameKey w = true) : v.isNumeric = w.isNumeric := by
  rw [Bool.eq_iff_iff, isNumeric_iff, isNumeric_iff, ← keyClass?_eq_notANumber,
    ← keyClass?_eq_notANumber, isSome_numberKey?_iff, isSome_numberKey?_iff, (sameKey_iff.1 h).2]

lemma rank_of_numberKey? {v : Value} {a : Int × Int × Nat} (h : v.numberKey? = some a) :
    0 < a.2.2 ∧ v.rank = toLex (a.1, (a.2.1 / a.2.2 : ℚ)) := by
  cases v with
  | bool b => obtain rfl := Option.some.inj h; simp [rank, keyClass?]
  | int i => obtain rfl := Option.some.inj h; simp [rank, keyClass?]
  | float x =>
    cases x with
    | finite s m e =>
      obtain rfl := Option.some.inj h
      exact ⟨Decimal.Binary64.den_pos _, rfl⟩
    | infinite s => obtain rfl := Option.some.inj h; simp [rank, keyClass?, floatClass]
    | nan => simp [numberKey?] at h
  | null | text _ | list _ | map _ => simp [numberKey?] at h

/-- Numbers are compared by their ranks. -/
lemma numberLe_iff {v w : Value} {a b : Int × Int × Nat} (ha : v.numberKey? = some a)
    (hb : w.numberKey? = some b) : numberLe a b = true ↔ v.rank ≤ w.rank := by
  obtain ⟨hda, hra⟩ := rank_of_numberKey? ha
  obtain ⟨hdb, hrb⟩ := rank_of_numberKey? hb
  have hda : (0 : ℚ) < a.2.2 := by exact_mod_cast hda
  have hdb : (0 : ℚ) < b.2.2 := by exact_mod_cast hdb
  have hle : (a.2.1 / a.2.2 : ℚ) ≤ b.2.1 / b.2.2 ↔ a.2.1 * b.2.2 ≤ b.2.1 * a.2.2 := by
    rw [div_le_div_iff₀ hda hdb]
    exact_mod_cast Iff.rfl
  rw [hra, hrb, Prod.Lex.toLex_le_toLex, hle]
  simp [numberLe]

/-- Of two numbers that are different keys, the one of lower rank comes first. -/
lemma precedes_of_rank_le {v w : Value} (hv : v.numberKey?.isSome = true)
    (hw : w.numberKey?.isSome = true) (hne : v.sameKey w = false) (hle : v.rank ≤ w.rank) :
    v.Precedes w := by
  obtain ⟨s, x, hv⟩ := isSome_numberKey?_iff.1 hv
  obtain ⟨t, y, hw⟩ := isSome_numberKey?_iff.1 hw
  refine ⟨_, _, hv, hw, ?_⟩
  have hscalar : v.isScalar = true := by rw [← isSome_keyClass?, hv]; rfl
  have hclass : ¬ (t = s ∧ y = x) := by
    rintro ⟨rfl, rfl⟩
    rw [sameKey_iff.2 ⟨hscalar, hw.trans hv.symm⟩] at hne
    nomatch hne
  rw [rank, rank, hv, hw, Prod.Lex.toLex_le_toLex] at hle
  rcases hle with hlt | ⟨rfl, hle⟩
  · exact .inl hlt
  · exact .inr ⟨rfl, lt_of_le_of_ne hle fun heq => hclass ⟨rfl, heq.symm⟩⟩

/-! ### Distinct scalars -/

lemma eq_of_length_le_one {α : Type} {as : List α} (h : as.length ≤ 1) {a b : α} (ha : a ∈ as)
    (hb : b ∈ as) : a = b := by
  match as, h with
  | [c], _ => rw [List.mem_singleton.1 ha, List.mem_singleton.1 hb]

/-- What is left are the scalars that are the first of their key. -/
lemma mem_distinct {vs : List Value} (h : ∀ v ∈ vs, v.isScalar = true) {z : Value} :
    z ∈ distinct vs ↔ vs.find? (·.sameKey z) = some z := by
  induction vs with
  | nil => simp [distinct]
  | cons v vs ih =>
    obtain ⟨hv, hvs⟩ := List.forall_mem_cons.1 h
    rw [distinct, List.mem_cons, List.mem_filter, ih hvs, List.find?_cons]
    cases hsame : v.sameKey z with
    | true => simp [eq_comm]
    | false =>
      have hne : z ≠ v := by
        rintro rfl
        rw [sameKey_self.2 hv] at hsame
        nomatch hsame
      simp [hne]

lemma mem_of_mem_distinct {vs : List Value} {z : Value} (h : z ∈ distinct vs) : z ∈ vs := by
  induction vs with
  | nil => nomatch h
  | cons v vs ih =>
    rw [distinct, List.mem_cons, List.mem_filter] at h
    rcases h with rfl | ⟨h, -⟩
    · exact .head _
    · exact .tail _ (ih h)

/-- No key is lost. -/
lemma exists_mem_distinct {vs : List Value} (h : ∀ v ∈ vs, v.isScalar = true) {v : Value}
    (hv : v ∈ vs) : ∃ z ∈ distinct vs, z.sameKey v = true := by
  have hfound : (vs.find? (·.sameKey v)).isSome = true :=
    List.find?_isSome.2 ⟨v, hv, sameKey_self.2 (h v hv)⟩
  obtain ⟨z, hz⟩ := Option.isSome_iff_exists.1 hfound
  have hsame : z.sameKey v = true := List.find?_some (p := fun w : Value => w.sameKey v) hz
  refine ⟨z, (mem_distinct h).2 ?_, hsame⟩
  simpa only [sameKey_congr_right hsame] using hz

lemma distinct_once (vs : List Value) :
    (distinct vs).Pairwise fun v w => v.sameKey w = false := by
  induction vs with
  | nil => exact .nil
  | cons v vs ih =>
    refine .cons (fun w hw => ?_) (ih.filter _)
    simpa using (List.mem_filter.1 hw).2

lemma distinct_eq_self {vs : List Value} (h : vs.Pairwise fun v w => v.sameKey w = false) :
    distinct vs = vs := by
  induction h with
  | nil => rfl
  | cons hv _ ih =>
    rw [distinct, ih, List.filter_eq_self.2]
    intro w hw
    rw [hv w hw]
    rfl

/-! ### Sorted scalars -/

lemma isSome_mapM {α β : Type} {f : α → Option β} {as : List α} :
    (as.mapM f).isSome = true ↔ ∀ a ∈ as, (f a).isSome = true := by
  induction as with
  | nil => simp
  | cons a as ih =>
    rw [List.forall_mem_cons, ← ih, List.mapM_cons]
    cases f a <;> cases as.mapM f <;> simp

lemma mapM_text? (ts : List Text) : (ts.map text).mapM text? = some ts := by
  induction ts with
  | nil => rfl
  | cons t ts ih => rw [List.map_cons, List.mapM_cons, ih]; rfl

lemma exists_texts {vs : List Value} (h : ∀ v ∈ vs, v.text?.isSome = true) :
    ∃ ts : List Text, vs = ts.map text := by
  induction vs with
  | nil => exact ⟨[], rfl⟩
  | cons v vs ih =>
    obtain ⟨hv, hvs⟩ := List.forall_mem_cons.1 h
    obtain ⟨t, ht⟩ := Option.isSome_iff_exists.1 hv
    obtain ⟨ts, rfl⟩ := ih hvs
    exact ⟨t :: ts, by rw [List.map_cons, text?_eq_some.1 ht]⟩

/-- The numbers with their order. -/
lemma exists_keyed {vs : List Value} (h : ∀ v ∈ vs, v.numberKey?.isSome = true) :
    ∃ keyed, (vs.mapM fun v => (v, ·) <$> v.numberKey?) = some keyed ∧
      keyed.map (·.1) = vs ∧ ∀ p ∈ keyed, p.1.numberKey? = some p.2 := by
  induction vs with
  | nil => exact ⟨[], rfl, rfl, nofun⟩
  | cons v vs ih =>
    obtain ⟨hv, hvs⟩ := List.forall_mem_cons.1 h
    obtain ⟨a, ha⟩ := Option.isSome_iff_exists.1 hv
    obtain ⟨keyed, hkeyed, hfst, hkeys⟩ := ih hvs
    refine ⟨(v, a) :: keyed, ?_, by rw [List.map_cons, hfst], ?_⟩
    · rw [List.mapM_cons, hkeyed, ha]
      rfl
    · exact List.forall_mem_cons.2 ⟨ha, hkeys⟩

section

variable {arranged vs zs : List Value}

lemma sortScalars_of_length (h : vs.length ≤ 1) : sortScalars arranged vs = .ok vs :=
  if_pos h

lemma sortScalars_texts (ts : List Text) :
    sortScalars arranged (ts.map text) = .ok ((sortNames ts).map text) := by
  match ts with
  | [] | [_] => rfl
  | s :: t :: ts =>
    rw [sortScalars, mapM_text?]
    rfl

lemma mapM_text?_eq_none (hlength : ¬ vs.length ≤ 1) (h : ∀ v ∈ vs, v.isNumeric = true) :
    vs.mapM text? = none := by
  match vs with
  | [] => simp at hlength
  | v :: vs =>
    have hv := h v (.head _)
    cases v <;> simp_all [isNumeric, text?, List.mapM_cons]

lemma sortScalars_numbers (h : ∀ v ∈ vs, v.numberKey?.isSome = true) :
    sortScalars arranged vs = .ok (sortBy (fun v w => decide (v.rank ≤ w.rank)) vs) := by
  match vs with
  | [] | [_] => rfl
  | v :: w :: vs =>
    have hno : (v :: w :: vs).mapM text? = none :=
      mapM_text?_eq_none (by simp) fun u hu => isNumeric_iff.2 (.inl (h u hu))
    obtain ⟨keyed, hkeyed, hfst, hkeys⟩ := exists_keyed h
    have hle : sortBy (fun a b => numberLe a.2 b.2) keyed =
        sortBy (fun a b => decide (a.1.rank ≤ b.1.rank)) keyed :=
      sortBy_congr fun a ha b hb => by
        rw [Bool.eq_iff_iff, decide_eq_true_iff, numberLe_iff (hkeys a ha) (hkeys b hb)]
    have hsort := sortBy_map (fun v w => decide (v.rank ≤ w.rank)) (·.1) keyed
    rw [hfst, ← hle] at hsort
    rw [sortScalars, hno, hkeyed, ← hsort]
    rfl

lemma mapM_numberKey?_eq_none (h : ¬ ∀ v ∈ vs, v.numberKey?.isSome = true) :
    (vs.mapM fun v => (v, ·) <$> v.numberKey?) = none := by
  rw [← Option.not_isSome_iff_eq_none, isSome_mapM]
  simpa using h

/-- More than one number, of which one has no place in the order, stand as they are arranged. -/
lemma sortScalars_arranged (hlength : ¬ vs.length ≤ 1) (hnumeric : ∀ v ∈ vs, v.isNumeric = true)
    (hnan : float .nan ∈ vs) : sortScalars arranged vs = .ok arranged := by
  have hno : ¬ ∀ v ∈ vs, v.numberKey?.isSome = true := fun h => nomatch h _ hnan
  rw [sortScalars, if_neg hlength, mapM_text?_eq_none hlength hnumeric,
    mapM_numberKey?_eq_none hno]
  exact if_pos (List.all_eq_true.2 hnumeric)

/-- Scalars that are neither few nor all texts nor all numbers are not to be sorted. -/
lemma sortScalars_mixed (hlength : ¬ vs.length ≤ 1) (htexts : ¬ ∀ v ∈ vs, v.text?.isSome = true)
    (hnumeric : ¬ ∀ v ∈ vs, v.isNumeric = true) :
    sortScalars arranged vs = .error .wrongSort := by
  have hno : ¬ ∀ v ∈ vs, v.numberKey?.isSome = true := fun h =>
    hnumeric fun v hv => isNumeric_iff.2 (.inl (h v hv))
  rw [← isSome_mapM, Option.not_isSome_iff_eq_none] at htexts
  rw [sortScalars, if_neg hlength, htexts, mapM_numberKey?_eq_none hno]
  exact if_neg fun h => hnumeric (List.all_eq_true.1 h)

/-- What sorting comes to. -/
lemma sortScalars_cases (arranged vs : List Value) :
    (vs.length ≤ 1 ∧ sortScalars arranged vs = .ok vs) ∨
      (∃ ts : List Text, vs = ts.map text ∧
        sortScalars arranged vs = .ok ((sortNames ts).map text)) ∨
      ((∀ v ∈ vs, v.numberKey?.isSome = true) ∧
        sortScalars arranged vs = .ok (sortBy (fun v w => decide (v.rank ≤ w.rank)) vs)) ∨
      ((1 < vs.length ∧ (∀ v ∈ vs, v.isNumeric = true) ∧ float .nan ∈ vs) ∧
        sortScalars arranged vs = .ok arranged) ∨
      ((1 < vs.length ∧ ¬ (∀ v ∈ vs, v.text?.isSome = true) ∧
        ¬ ∀ v ∈ vs, v.isNumeric = true) ∧ sortScalars arranged vs = .error .wrongSort) := by
  by_cases hlength : vs.length ≤ 1
  · exact .inl ⟨hlength, sortScalars_of_length hlength⟩
  by_cases htexts : ∀ v ∈ vs, v.text?.isSome = true
  · obtain ⟨ts, rfl⟩ := exists_texts htexts
    exact .inr (.inl ⟨ts, rfl, sortScalars_texts ts⟩)
  by_cases hnumeric : ∀ v ∈ vs, v.isNumeric = true
  · by_cases hnan : float .nan ∈ vs
    · exact .inr (.inr (.inr (.inl ⟨⟨by omega, hnumeric, hnan⟩,
        sortScalars_arranged hlength hnumeric hnan⟩)))
    · have hnumbers : ∀ v ∈ vs, v.numberKey?.isSome = true := fun v hv =>
        (isNumeric_iff.1 (hnumeric v hv)).resolve_right fun heq => hnan (heq ▸ hv)
      exact .inr (.inr (.inl ⟨hnumbers, sortScalars_numbers hnumbers⟩))
  · exact .inr (.inr (.inr (.inr ⟨⟨by omega, htexts, hnumeric⟩,
      sortScalars_mixed hlength htexts hnumeric⟩)))

lemma sortScalars_perm (harranged : arranged.Perm vs) (h : sortScalars arranged vs = .ok zs) :
    zs.Perm vs := by
  rcases sortScalars_cases arranged vs with
    ⟨-, heq⟩ | ⟨ts, rfl, heq⟩ | ⟨-, heq⟩ | ⟨-, heq⟩ | ⟨-, heq⟩ <;> rw [heq] at h
  · obtain rfl := Except.ok.inj h
    exact .refl _
  · obtain rfl := Except.ok.inj h
    exact (sortNames_perm ts).map _
  · obtain rfl := Except.ok.inj h
    exact sortBy_perm _ vs
  · obtain rfl := Except.ok.inj h
    exact harranged
  · nomatch h

lemma sortBy_rank_ascending (vs : List Value) :
    (sortBy (fun v w => decide (v.rank ≤ w.rank)) vs).Pairwise fun v w => v.rank ≤ w.rank := by
  have total (v w : Value) : (decide (v.rank ≤ w.rank) || decide (w.rank ≤ v.rank)) = true := by
    simpa using le_total v.rank w.rank
  have trans (u v w : Value) :
      decide (u.rank ≤ v.rank) → decide (v.rank ≤ w.rank) → decide (u.rank ≤ w.rank) := by
    simpa using le_trans
  exact (sortBy_pairwise total trans vs).imp of_decide_eq_true

/-- Scalars that are different keys stand in ascending order, if all of them have a place in it. -/
lemma sortScalars_ascending (h : sortScalars arranged vs = .ok zs)
    (honce : vs.Pairwise fun v w => v.sameKey w = false) (hnan : float .nan ∉ vs) :
    zs.Pairwise Precedes := by
  rcases sortScalars_cases arranged vs with
    ⟨hlength, heq⟩ | ⟨ts, rfl, heq⟩ | ⟨hnumbers, heq⟩ | ⟨hno, -⟩ | ⟨-, heq⟩
  · rw [heq] at h
    obtain rfl := Except.ok.inj h
    cases vs with
    | nil => exact .nil
    | cons v vs =>
      obtain rfl : vs = [] := by simpa using hlength
      exact List.pairwise_singleton _ v
  · rw [heq] at h
    obtain rfl := Except.ok.inj h
    have honce' : (sortNames ts).Pairwise fun s t => s ≠ t := by
      refine ((sortNames_perm ts).pairwise_iff fun hne => hne.symm).2 ?_
      refine (List.pairwise_map.1 honce).imp fun {s t} hne => ?_
      simpa [sameKey, integer?] using hne
    refine List.pairwise_map.2 (((sortNames_ascending ts).and honce').imp fun {s t} hst => ?_)
    rw [text_precedes_text]
    exact Text.lt_of_le_of_ne hst.1 hst.2
  · rw [heq] at h
    obtain rfl := Except.ok.inj h
    have honce' : (sortBy (fun v w => decide (v.rank ≤ w.rank)) vs).Pairwise
        fun v w => v.sameKey w = false := by
      refine ((sortBy_perm _ vs).pairwise_iff fun {v w} hvw => ?_).2 honce
      rw [sameKey_comm, hvw]
    refine ((sortBy_rank_ascending vs).and honce').imp_of_mem fun {v w} hv hw hvw => ?_
    have hv := (sortBy_perm _ vs).mem_iff.1 hv
    have hw := (sortBy_perm _ vs).mem_iff.1 hw
    exact precedes_of_rank_le (hnumbers v hv) (hnumbers w hw) hvw.2 hvw.1
  · exact absurd hno.2.2 hnan
  · rw [heq] at h
    cases h

end

/-- More than one value, one of which is not a number: if these are sorted, they have no order. -/
def Unordered (vs : List Value) : Prop := 1 < vs.length ∧ float .nan ∈ vs

/-- Sorting again changes nothing, unless what is sorted has no order. Then it is arranged anew. -/
lemma sortScalars_sorted {arranged vs zs : List Value} (again : List Value)
    (harranged : arranged.Perm vs) (h : sortScalars arranged vs = .ok zs) :
    (¬ Unordered zs → sortScalars again zs = .ok zs) ∧
      (Unordered zs → sortScalars again zs = .ok again) := by
  have hperm := sortScalars_perm harranged h
  rcases sortScalars_cases arranged vs with
    ⟨hlength, heq⟩ | ⟨ts, rfl, heq⟩ | ⟨hnumbers, heq⟩ | ⟨⟨hlength, hnumeric, hnan⟩, heq⟩ | ⟨-, heq⟩
  · rw [← hperm.length_eq] at hlength
    exact ⟨fun _ => sortScalars_of_length hlength, fun hno => absurd hno.1 (by omega)⟩
  · rw [heq] at h
    obtain rfl := Except.ok.inj h
    refine ⟨fun _ => ?_, fun hno => ?_⟩
    · rw [sortScalars_texts, sortNames_congr (sortNames_perm ts)]
    · obtain ⟨t, -, ht⟩ := List.mem_map.1 hno.2
      nomatch ht
  · rw [heq] at h
    obtain rfl := Except.ok.inj h
    have hnumbers' : ∀ v ∈ sortBy (fun v w => decide (v.rank ≤ w.rank)) vs,
        v.numberKey?.isSome = true := fun v hv => hnumbers v (hperm.mem_iff.1 hv)
    refine ⟨fun _ => ?_, fun hno => nomatch hnumbers' _ hno.2⟩
    rw [sortScalars_numbers hnumbers', sortBy_eq_self]
    exact (sortBy_rank_ascending vs).imp fun hle => decide_eq_true hle
  · rw [← hperm.length_eq] at hlength
    have hnan : float .nan ∈ zs := hperm.mem_iff.2 hnan
    refine ⟨fun hno => absurd ⟨hlength, hnan⟩ hno, fun _ => ?_⟩
    exact sortScalars_arranged (by omega) (fun v hv => hnumeric v (hperm.mem_iff.1 hv)) hnan
  · rw [heq] at h
    nomatch h

/-! ### Unions -/

/-- The values are scalars that can be put in order. -/
structure Unitable (vs : List Value) : Prop where
  scalars : ∀ v ∈ vs, v.isScalar = true
  comparable : (∀ v ∈ vs, ∀ w ∈ vs, v.sameKey w = true) ∨ (∀ v ∈ vs, v.text?.isSome = true) ∨
    ∀ v ∈ vs, v.isNumeric = true

/-- A list has each scalar of two others once: of those that are one key the first. They stand in
ascending order, in which only what is not a number has no place. -/
structure IsUnion (xs ys zs : List Value) : Prop where
  mem_iff : ∀ z, z ∈ zs ↔ (xs ++ ys).find? (·.sameKey z) = some z
  once : zs.Pairwise fun v w => v.sameKey w = false
  ascending : (∀ v ∈ xs ++ ys, v.keyClass? ≠ some .notANumber) → zs.Pairwise Precedes

/-- Scalars that are all one key leave no more than one. -/
lemma length_distinct_le_one {vs : List Value}
    (h : ∀ v ∈ vs, ∀ w ∈ vs, v.sameKey w = true) : (distinct vs).length ≤ 1 := by
  have honce := distinct_once vs
  have hmem {z : Value} (hz : z ∈ distinct vs) : z ∈ vs := mem_of_mem_distinct hz
  match hds : distinct vs with
  | [] | [_] => simp
  | v :: w :: ds =>
    rw [hds] at honce hmem
    have hne := List.rel_of_pairwise_cons honce (.head ds)
    rw [h v (hmem (.head _)) w (hmem (.tail _ (.head _)))] at hne
    nomatch hne

/-- Distinct scalars are to be sorted exactly if all of them can be put in order. -/
lemma sortScalars_distinct_ok_iff {arranged vs : List Value}
    (h : ∀ v ∈ vs, v.isScalar = true) :
    (∃ zs, sortScalars arranged (distinct vs) = .ok zs) ↔ Unitable vs := by
  constructor
  · rintro ⟨zs, hzs⟩
    refine ⟨h, ?_⟩
    have hnumeric (hall : ∀ z ∈ distinct vs, z.isNumeric = true) :
        ∀ v ∈ vs, v.isNumeric = true := by
      intro v hv
      obtain ⟨z, hz, hzv⟩ := exists_mem_distinct h hv
      rw [← isNumeric_congr hzv, hall z hz]
    rcases sortScalars_cases arranged (distinct vs) with
      ⟨hlength, -⟩ | ⟨ts, hts, -⟩ | ⟨hnumbers, -⟩ | ⟨⟨-, hall, -⟩, -⟩ | ⟨-, heq⟩
    · refine .inl fun v hv w hw => ?_
      obtain ⟨y, hy, hyv⟩ := exists_mem_distinct h hv
      obtain ⟨z, hz, hzw⟩ := exists_mem_distinct h hw
      obtain rfl : y = z := eq_of_length_le_one hlength hy hz
      rw [← sameKey_congr hyv, hzw]
    · refine .inr (.inl fun v hv => ?_)
      obtain ⟨z, hz, hzv⟩ := exists_mem_distinct h hv
      obtain ⟨t, -, rfl⟩ := List.mem_map.1 (hts ▸ hz)
      rw [← isSome_text?_congr hzv]
      rfl
    · exact .inr (.inr (hnumeric fun z hz => isNumeric_iff.2 (.inl (hnumbers z hz))))
    · exact .inr (.inr (hnumeric hall))
    · rw [heq] at hzs
      nomatch hzs
  · rintro ⟨-, hone | htexts | hnumeric⟩
    · exact ⟨_, sortScalars_of_length (length_distinct_le_one hone)⟩
    · obtain ⟨ts, hts⟩ := exists_texts fun z hz => htexts z (mem_of_mem_distinct hz)
      rw [hts]
      exact ⟨_, sortScalars_texts ts⟩
    · rcases sortScalars_cases arranged (distinct vs) with
        ⟨-, heq⟩ | ⟨ts, -, heq⟩ | ⟨-, heq⟩ | ⟨-, heq⟩ | ⟨⟨-, -, hno⟩, -⟩
      · exact ⟨_, heq⟩
      · exact ⟨_, heq⟩
      · exact ⟨_, heq⟩
      · exact ⟨_, heq⟩
      · exact absurd (fun z hz => hnumeric z (mem_of_mem_distinct hz)) hno

/-- The union of texts has exactly the texts of either, in strictly ascending order. -/
lemma IsUnion.texts {us ws : List Text} {zs : List Value}
    (h : IsUnion (us.map text) (ws.map text) zs) :
    ∃ ts : List Text, zs = ts.map text ∧ ts.Pairwise (· < ·) ∧ ∀ t, t ∈ ts ↔ t ∈ us ∨ t ∈ ws := by
  have hmem (v : Value) (hv : v ∈ us.map text ++ ws.map text) : ∃ t, text t = v := by
    rw [← List.map_append] at hv
    exact (List.mem_map.1 hv).imp fun t ht => ht.2
  obtain ⟨ts, rfl⟩ : ∃ ts : List Text, zs = ts.map text := by
    refine exists_texts fun z hz => ?_
    obtain ⟨t, rfl⟩ := hmem z (List.mem_of_find?_eq_some ((h.mem_iff z).1 hz))
    rfl
  refine ⟨ts, rfl, ?_, fun t => ?_⟩
  · refine (List.pairwise_map.1 (h.ascending fun v hv => ?_)).imp text_precedes_text.1
    obtain ⟨t, rfl⟩ := hmem v hv
    nofun
  · have hfound : (us.map text ++ ws.map text).find? (·.sameKey (text t)) = some (text t) ↔
        text t ∈ us.map text ++ ws.map text := by
      refine ⟨List.mem_of_find?_eq_some, fun ht => ?_⟩
      have hsome : ((us.map text ++ ws.map text).find? (·.sameKey (text t))).isSome = true :=
        List.find?_isSome.2 ⟨_, ht, sameKey_self.2 rfl⟩
      obtain ⟨z, hz⟩ := Option.isSome_iff_exists.1 hsome
      obtain rfl : z = text t :=
        sameKey_text_iff.1 (List.find?_some (p := fun w : Value => w.sameKey (text t)) hz)
      exact hz
    have hiff := (h.mem_iff (text t)).trans hfound
    simpa using hiff

variable [Arrangement] {xs ys zs : List Value}

lemma union_ok_iff : (∃ zs, union xs ys = .ok zs) ↔ Unitable (xs ++ ys) := by
  by_cases h : ∀ v ∈ xs ++ ys, v.isScalar = true
  · rw [union, if_pos (List.all_eq_true.2 h), sortScalars_distinct_ok_iff h]
  · rw [union, if_neg (by rwa [List.all_eq_true])]
    exact ⟨nofun, fun hu => absurd hu.scalars h⟩

lemma union_eq_sortScalars (h : union xs ys = .ok zs) :
    (∀ v ∈ xs ++ ys, v.isScalar = true) ∧
      sortScalars (Arrangement.arrange xs ys) (distinct (xs ++ ys)) = .ok zs := by
  have hscalars := (union_ok_iff.1 ⟨zs, h⟩).scalars
  rw [union, if_pos (List.all_eq_true.2 hscalars)] at h
  exact ⟨hscalars, h⟩

lemma union_error {e : Failure} (h : union xs ys = .error e) : e = .wrongSort := by
  rw [union] at h
  split at h
  · rcases sortScalars_cases (Arrangement.arrange xs ys) (distinct (xs ++ ys)) with
      ⟨-, heq⟩ | ⟨_, -, heq⟩ | ⟨-, heq⟩ | ⟨-, heq⟩ | ⟨-, heq⟩ <;> rw [heq] at h
    · nomatch h
    · nomatch h
    · nomatch h
    · nomatch h
    · exact (Except.error.inj h).symm
  · exact (Except.error.inj h).symm

/-- The union of two lists has each scalar of either once, in ascending order. -/
lemma isUnion_of_ok (h : union xs ys = .ok zs) : IsUnion xs ys zs := by
  obtain ⟨hscalars, h⟩ := union_eq_sortScalars h
  have hperm := sortScalars_perm (Arrangement.perm xs ys) h
  refine ⟨fun z => ?_, ?_, fun hplace => ?_⟩
  · rw [hperm.mem_iff, mem_distinct hscalars]
  · refine (hperm.pairwise_iff fun {v w} hvw => ?_).2 (distinct_once _)
    rw [sameKey_comm, hvw]
  · refine sortScalars_ascending h (distinct_once _) fun hnan => ?_
    exact hplace _ (mem_of_mem_distinct hnan) (keyClass?_eq_notANumber.2 rfl)

/-- A union is united already: with nothing it is left as it is. One that has no order is arranged
anew, and that loses and adds nothing. -/
lemma union_nil_union (h : union xs ys = .ok zs) :
    (¬ Unordered zs → union [] zs = .ok zs) ∧
      (Unordered zs → union [] zs = .ok (Arrangement.arrange [] zs)) ∧
      (Arrangement.arrange [] zs).Perm zs := by
  obtain ⟨hscalars, hsort⟩ := union_eq_sortScalars h
  have hzs : ∀ z ∈ zs, z.isScalar = true := by
    intro z hz
    exact hscalars z (List.mem_of_find?_eq_some (((isUnion_of_ok h).mem_iff z).1 hz))
  have hdistinct : distinct ([] ++ zs) = zs := distinct_eq_self (isUnion_of_ok h).once
  have hunion : union [] zs = sortScalars (Arrangement.arrange [] zs) zs := by
    rw [union, hdistinct]
    exact if_pos (List.all_eq_true.2 hzs)
  have hperm := Arrangement.perm [] zs
  rw [hdistinct] at hperm
  obtain ⟨hordered, hunordered⟩ :=
    sortScalars_sorted (Arrangement.arrange [] zs) (Arrangement.perm xs ys) hsort
  rw [hunion]
  exact ⟨hordered, hunordered, hperm⟩

end ApiDocs.Value
