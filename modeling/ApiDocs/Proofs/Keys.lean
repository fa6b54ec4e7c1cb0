import ApiDocs.Settings.Merge
import Mathlib.Algebra.Order.Field.Rat

/-!
# Keys of mappings

Scalars fall into classes, and those of one class are one key. So being one key is symmetric and
transitive, entries are found under any name of their key, and what is put under a key is found
there, and nothing else changes.
-/

namespace ApiDocs

open Decimal

namespace Decimal.Binary64

lemma den_pos (x : Binary64) : 0 < x.signedRatio.2 := by
  cases x with
  | finite s m e =>
    change 0 < (scale 2 e (m, 1)).2
    rw [scale]
    split
    · exact Nat.one_pos
    · exact Nat.mul_pos Nat.one_pos (Nat.pow_pos (by decide))
  | infinite s => exact Nat.one_pos
  | nan => exact Nat.one_pos

/-- The value of a finite number; zero for the others. -/
def value (x : Binary64) : ℚ := x.signedRatio.1 / x.signedRatio.2

lemma value_le_iff (x y : Binary64) :
    x.value ≤ y.value ↔
      x.signedRatio.1 * y.signedRatio.2 ≤ y.signedRatio.1 * x.signedRatio.2 := by
  have hx : 0 < (x.signedRatio.2 : ℚ) := by exact_mod_cast den_pos x
  have hy : 0 < (y.signedRatio.2 : ℚ) := by exact_mod_cast den_pos y
  rw [value, value, div_le_div_iff₀ hx hy]
  exact_mod_cast Iff.rfl

lemma value_eq_int_iff (x : Binary64) (i : Int) :
    x.value = i ↔ x.signedRatio.1 = i * x.signedRatio.2 := by
  have hx : (x.signedRatio.2 : ℚ) ≠ 0 := by exact_mod_cast (den_pos x).ne'
  rw [value, div_eq_iff hx]
  exact_mod_cast Iff.rfl

end Decimal.Binary64

namespace Value

/-! ### Classes of scalars -/

/-- What scalars that are one key have in common. Numbers have a value; infinite ones lie on a side
of all others. -/
inductive KeyClass where
  | null
  | number (side : Int) (value : ℚ)
  | notANumber
  | text (s : Text)

def floatClass : Binary64 → KeyClass
  | .nan => .notANumber
  | .infinite s => .number (if s then -1 else 1) 0
  | x => .number 0 x.value

def keyClass? : Value → Option KeyClass
  | null => some .null
  | bool b => some (.number 0 (if b then 1 else 0 : Int))
  | int i => some (.number 0 i)
  | float x => some (floatClass x)
  | text s => some (.text s)
  | list _ | map _ => none

lemma floatIs_iff {x : Binary64} {i : Int} :
    floatIs x i = true ↔ floatClass x = .number 0 i := by
  cases x with
  | finite s m e =>
    rw [floatIs, floatClass, KeyClass.number.injEq, Binary64.value_eq_int_iff]
    · simp
    all_goals nofun
  | infinite s => cases s <;> simp [floatIs, floatClass]
  | nan => simp [floatIs, floatClass]

lemma same_iff {x y : Binary64} : x.same y = true ↔ floatClass x = floatClass y := by
  match x, y with
  | .nan, .nan => simp [Binary64.same]
  | .nan, .infinite s | .nan, .finite .. => simp [Binary64.same, floatClass]
  | .infinite s, .nan | .finite .., .nan => simp [Binary64.same, floatClass]
  | .infinite s, .infinite t =>
    cases s <;> cases t <;> simp [Binary64.same, Binary64.lt, floatClass]
  | .infinite s, .finite .. => cases s <;> simp [Binary64.same, Binary64.lt, floatClass]
  | .finite .., .infinite t => cases t <;> simp [Binary64.same, Binary64.lt, floatClass]
  | .finite s m e, .finite t n f =>
    have hvalue (x y : Binary64) : x.value = y.value ↔
        ¬ y.signedRatio.1 * x.signedRatio.2 < x.signedRatio.1 * y.signedRatio.2 ∧
          ¬ x.signedRatio.1 * y.signedRatio.2 < y.signedRatio.1 * x.signedRatio.2 := by
      rw [le_antisymm_iff, Binary64.value_le_iff, Binary64.value_le_iff, not_lt, not_lt]
    simp only [floatClass, KeyClass.number.injEq, true_and, hvalue]
    simp [Binary64.same, Binary64.lt, and_comm]

lemma floatClass_ne_null (x : Binary64) : floatClass x ≠ .null := by
  cases x <;> nofun

lemma floatClass_ne_text (x : Binary64) (s : Text) : floatClass x ≠ .text s := by
  cases x <;> nofun

lemma bool_sameKey (b : Bool) (v : Value) :
    (bool b).sameKey v = (int (if b then 1 else 0)).sameKey v := rfl

lemma sameKey_bool (v : Value) (b : Bool) :
    v.sameKey (bool b) = v.sameKey (int (if b then 1 else 0)) := by
  cases v <;> rfl

lemma int_sameKey_iff (i : Int) (v : Value) :
    (int i).sameKey v = true ↔ v.keyClass? = some (.number 0 i) := by
  have hint (j : Int) : (int i).sameKey (int j) = true ↔
      (int j).keyClass? = some (.number 0 i) := by
    simp [sameKey, integer?, keyClass?, eq_comm]
  cases v with
  | int j => exact hint j
  | bool b =>
    rw [sameKey_bool]
    exact hint _
  | float x => simpa [sameKey, integer?, keyClass?] using floatIs_iff
  | null | text _ | list _ | map _ => simp [sameKey, integer?, keyClass?]

lemma float_sameKey_iff (x : Binary64) (v : Value) :
    (float x).sameKey v = true ↔ v.keyClass? = some (floatClass x) := by
  have hint (j : Int) : (float x).sameKey (int j) = true ↔
      (int j).keyClass? = some (floatClass x) := by
    simpa [sameKey, integer?, keyClass?] using floatIs_iff.trans eq_comm
  cases v with
  | int j => exact hint j
  | bool b =>
    rw [sameKey_bool]
    exact hint _
  | float y => simpa [sameKey, integer?, keyClass?] using same_iff.trans eq_comm
  | null => simp [sameKey, integer?, keyClass?, (floatClass_ne_null x).symm]
  | text s => simp [sameKey, integer?, keyClass?, (floatClass_ne_text x s).symm]
  | list _ | map _ => simp [sameKey, integer?, keyClass?]

/-- Scalars are one key if they are of one class. -/
lemma sameKey_iff {a b : Value} :
    a.sameKey b = true ↔ a.isScalar = true ∧ b.keyClass? = a.keyClass? := by
  cases a with
  | bool c => simp [bool_sameKey, int_sameKey_iff, isScalar, keyClass?]
  | int i => simp [int_sameKey_iff, isScalar, keyClass?]
  | float x => simp [float_sameKey_iff, isScalar, keyClass?]
  | null =>
    cases b with
    | float x => simp [sameKey, integer?, isScalar, keyClass?, floatClass_ne_null]
    | null | bool _ | int _ | text _ | list _ | map _ =>
      simp [sameKey, integer?, isScalar, keyClass?]
  | text s =>
    cases b with
    | float x => simp [sameKey, integer?, isScalar, keyClass?, floatClass_ne_text]
    | text t => simp [sameKey, integer?, isScalar, keyClass?, eq_comm]
    | null | bool _ | int _ | list _ | map _ => simp [sameKey, integer?, isScalar, keyClass?]
  | list _ | map _ => cases b <;> simp [sameKey, integer?, isScalar]

@[simp] lemma isSome_keyClass? (v : Value) : v.keyClass?.isSome = v.isScalar := by
  cases v <;> rfl

lemma sameKey_self {v : Value} : v.sameKey v = true ↔ v.isScalar = true := by
  simp [sameKey_iff]

lemma sameKey_comm (a b : Value) : a.sameKey b = b.sameKey a := by
  have hsymm {a b : Value} (h : a.sameKey b = true) : b.sameKey a = true := by
    obtain ⟨ha, hclass⟩ := sameKey_iff.1 h
    refine sameKey_iff.2 ⟨?_, hclass.symm⟩
    rw [← isSome_keyClass?, hclass, isSome_keyClass?, ha]
  exact Bool.eq_iff_iff.2 ⟨hsymm, hsymm⟩

/-- Two names of one key are the same key as the same scalars. -/
lemma sameKey_congr {a b : Value} (h : a.sameKey b = true) (v : Value) :
    a.sameKey v = b.sameKey v := by
  obtain ⟨ha, hclass⟩ := sameKey_iff.1 h
  obtain ⟨hb, -⟩ := sameKey_iff.1 (sameKey_comm a b ▸ h)
  rw [Bool.eq_iff_iff, sameKey_iff, sameKey_iff, hclass, ha, hb]

lemma sameKey_congr_right {a b : Value} (h : a.sameKey b = true) (v : Value) :
    v.sameKey a = v.sameKey b := by
  rw [sameKey_comm v, sameKey_congr h, sameKey_comm b]

lemma sameKey_text_iff {v : Value} {t : Text} : v.sameKey (text t) = true ↔ v = text t := by
  rw [sameKey_comm, sameKey_iff]
  cases v with
  | float x => simp [isScalar, keyClass?, floatClass_ne_text]
  | null | bool _ | int _ | text _ | list _ | map _ => simp [isScalar, keyClass?]

/-! ### Entries -/

lemma find?_congr {a b : Value} (h : a.sameKey b = true) (es : List (Value × Value)) :
    find? a es = find? b es := by
  induction es with
  | nil => rfl
  | cons e es ih => simp only [find?, sameKey_congr_right h, ih]

lemma find?_put (key key' value : Value) (es : List (Value × Value)) :
    find? key' (put key value es) =
      if key.sameKey key' then some value else find? key' es := by
  induction es with
  | nil => rfl
  | cons e es ih =>
    rw [put]
    split
    · next h =>
      simp only [find?, sameKey_congr h]
      split <;> rfl
    · next h =>
      simp only [find?, ih]
      split
      · next hkey =>
        have hne : key.sameKey key' = false := by
          rw [← sameKey_congr_right hkey, sameKey_comm]
          exact Bool.not_eq_true _ ▸ h
        simp [hne]
      · rfl

/-- What is put under a key keeps the keys that are there, and adds its own if it is new. -/
lemma map_fst_put (key value : Value) (es : List (Value × Value)) :
    (put key value es).map (·.1) =
      es.map (·.1) ++ if (find? key es).isSome then [] else [key] := by
  induction es with
  | nil => rfl
  | cons e es ih =>
    rw [put, find?]
    split
    · simp
    · simp [ih]

lemma mem_put {key value : Value} {es : List (Value × Value)} {e : Value × Value}
    (h : e ∈ put key value es) :
    e ∈ es ∨ (e.1 = key ∨ e.1.sameKey key = true) ∧ e.2 = value := by
  induction es with
  | nil =>
    obtain rfl := List.mem_singleton.1 h
    exact .inr ⟨.inl rfl, rfl⟩
  | cons d es ih =>
    rw [put] at h
    split at h
    · next hkey =>
      rcases List.mem_cons.1 h with rfl | h
      · exact .inr ⟨.inr hkey, rfl⟩
      · exact .inl (.tail _ h)
    · rcases List.mem_cons.1 h with rfl | h
      · exact .inl (.head _)
      · exact (ih h).imp_left (.tail _)

lemma find?_append (key : Value) (ds es : List (Value × Value)) :
    find? key (ds ++ es) = (find? key ds).or (find? key es) := by
  induction ds with
  | nil => rfl
  | cons d ds ih =>
    simp only [List.cons_append, find?, ih]
    split <;> rfl

lemma find?_eq_none {key : Value} {es : List (Value × Value)} :
    find? key es = none ↔ ∀ e ∈ es, e.1.sameKey key = false := by
  induction es with
  | nil => simp [find?]
  | cons e es ih =>
    rw [find?, List.forall_mem_cons, ← ih]
    split <;> simp [*]

lemma put_append {key : Value} (value : Value) {ds : List (Value × Value)}
    (h : find? key ds = none) (es : List (Value × Value)) :
    put key value (ds ++ es) = ds ++ put key value es := by
  induction ds with
  | nil => rfl
  | cons d ds ih =>
    have hnone := find?_eq_none.1 h
    rw [List.cons_append, put, if_neg (by simp [hnone d (.head _)]), List.cons_append,
      ih (find?_eq_none.2 fun e he => hnone e (.tail _ he))]

/-- What is found under a key can be put there without a change. -/
lemma put_of_find? {key v : Value} {es : List (Value × Value)} (h : find? key es = some v) :
    put key v es = es := by
  induction es with
  | nil => nomatch h
  | cons e es ih =>
    rw [find?] at h
    rw [put]
    split at h
    · next hsame =>
      obtain rfl := Option.some.inj h
      rw [if_pos hsame]
    · next hsame => rw [if_neg hsame, ih h]

lemma mem_of_find? {key v : Value} {es : List (Value × Value)} (h : find? key es = some v) :
    ∃ e ∈ es, e.1.sameKey key = true ∧ e.2 = v := by
  induction es with
  | nil => nomatch h
  | cons e es ih =>
    rw [find?] at h
    split at h
    · next hkey => exact ⟨e, by simp, hkey, Option.some.inj h⟩
    · obtain ⟨e', he', hkey⟩ := ih h
      exact ⟨e', by simp [he'], hkey⟩

/-! ### Distinct keys -/

/-- The keys of entries are different scalars. -/
structure DistinctKeys (es : List (Value × Value)) : Prop where
  distinct : es.Pairwise fun d e => d.1.sameKey e.1 = false
  scalars : ∀ e ∈ es, e.1.isScalar = true

lemma distinctKeys_singleton {e : Value × Value} : DistinctKeys [e] ↔ e.1.isScalar = true := by
  constructor
  · intro h
    exact h.scalars e (.head _)
  · intro h
    exact ⟨List.pairwise_singleton _ e, by simpa using h⟩

namespace DistinctKeys

variable {e : Value × Value} {es : List (Value × Value)}

lemma nil : DistinctKeys [] := ⟨.nil, nofun⟩

lemma of_cons (h : DistinctKeys (e :: es)) : DistinctKeys es :=
  ⟨h.distinct.of_cons, fun d hd => h.scalars d (.tail _ hd)⟩

lemma ne_head (h : DistinctKeys (e :: es)) : ∀ d ∈ es, e.1.sameKey d.1 = false :=
  (List.pairwise_cons.1 h.distinct).1

lemma head_isScalar (h : DistinctKeys (e :: es)) : e.1.isScalar = true := h.scalars e (.head _)

lemma put (h : DistinctKeys es) {key : Value} (hkey : key.isScalar = true) (value : Value) :
    DistinctKeys (put key value es) := by
  have hkeys : ((Value.put key value es).map (·.1)).Pairwise fun d e => d.sameKey e = false := by
    rw [map_fst_put, List.pairwise_append]
    refine ⟨List.pairwise_map.2 h.distinct, ?_, fun d hd k hk => ?_⟩
    · split <;> simp
    · obtain ⟨e, he, rfl⟩ := List.mem_map.1 hd
      split at hk
      · nomatch hk
      · next hnone =>
        obtain rfl := List.mem_singleton.1 hk
        exact find?_eq_none.1 (Option.not_isSome_iff_eq_none.1 hnone) e he
  refine ⟨List.pairwise_map.1 hkeys, fun e he => ?_⟩
  rcases mem_put he with he | ⟨rfl | hsame, -⟩
  · exact h.scalars e he
  · exact hkey
  · exact (sameKey_iff.1 hsame).1

/-- Each entry is found under its key. -/
lemma find?_of_mem (h : DistinctKeys es) {key v : Value} (hmem : (key, v) ∈ es) :
    find? key es = some v := by
  induction es with
  | nil => nomatch hmem
  | cons e es ih =>
    rw [find?]
    rcases List.mem_cons.1 hmem with rfl | hmem
    · rw [if_pos (sameKey_self.2 h.head_isScalar)]
    · rw [h.ne_head _ hmem, if_neg Bool.false_ne_true, ih h.of_cons hmem]

/-- What stands behind an entry is not found under its key. -/
lemma find?_eq_none (h : DistinctKeys (e :: es)) {key : Value} (hkey : e.1.sameKey key = true) :
    find? key es = none := by
  refine Value.find?_eq_none.2 fun d hd => ?_
  rw [sameKey_comm, ← sameKey_congr hkey, h.ne_head d hd]

end DistinctKeys

end Value
end ApiDocs
