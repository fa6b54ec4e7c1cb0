import ApiDocs.Table
import Mathlib.Data.List.Nodup
import Mathlib.Data.List.Perm.Basic

/-!
# Laws of tables

What stands under a name after putting something in, and which names are there. Building a table
from entries with distinct names keeps the entries as they are.
-/

namespace ApiDocs

/-- Where keys are distinct, a look-up finds what an entry says. -/
lemma lookup_eq_some_iff_mem {κ α : Type} [BEq κ] [LawfulBEq κ] {es : List (κ × α)}
    (h : (es.map (·.1)).Nodup) {k : κ} {v : α} : es.lookup k = some v ↔ (k, v) ∈ es := by
  induction es with
  | nil => simp
  | cons e es ih =>
    obtain ⟨k', v'⟩ := e
    have hk := List.nodup_cons.1 h
    simp only [List.lookup_cons, List.mem_cons, Prod.mk.injEq]
    by_cases hkk : k = k'
    · subst hkk
      have : (k, v) ∉ es := fun hm => hk.1 (List.mem_map.2 ⟨_, hm, rfl⟩)
      simp [this, eq_comm]
    · simp [beq_false_of_ne hkk, hkk, ih hk.2]

namespace Table

variable {α β : Type}

@[simp] lemma keys_empty : (empty : Table α).keys = [] := rfl

@[simp] lemma get?_empty (k : Text) : (empty : Table α).get? k = none := rfl

/-! ### Looking up -/

lemma has_iff_mem_keys (t : Table α) (k : Text) : t.has k = true ↔ k ∈ t.keys := by
  rw [has, get?, List.lookup_isSome_iff, keys, List.mem_map]
  refine exists_congr fun e => and_congr_right fun _ => ?_
  rw [beq_iff_eq, eq_comm]

lemma get?_eq_none_iff (t : Table α) (k : Text) : t.get? k = none ↔ k ∉ t.keys := by
  rw [← has_iff_mem_keys, has, Bool.not_eq_true, Option.isSome_eq_false_iff,
    Option.isNone_iff_eq_none]

lemma mem_keys_of_get? {t : Table α} {k : Text} {v : α} (h : t.get? k = some v) :
    k ∈ t.keys := by
  rw [← has_iff_mem_keys, has, h]
  rfl

lemma exists_of_mem_keys {t : Table α} {k : Text} (h : k ∈ t.keys) : ∃ v, t.get? k = some v :=
  Option.isSome_iff_exists.1 ((has_iff_mem_keys t k).2 h)

/-- What stands under a name is what an entry says. -/
lemma mem_entries_of_get? {t : Table α} {k : Text} {v : α} (h : t.get? k = some v) :
    (k, v) ∈ t.entries := by
  obtain ⟨before, after, hentries, -⟩ := List.lookup_eq_some_iff.1 h
  rw [hentries]
  exact List.mem_append_right _ (List.mem_cons_self ..)

/-- Where names are distinct, what stands under a name is what an entry says, and nothing else
is. -/
lemma get?_eq_some_iff {t : Table α} (h : t.keys.Nodup) (k : Text) (v : α) :
    t.get? k = some v ↔ (k, v) ∈ t.entries :=
  lookup_eq_some_iff_mem h

lemma entries_eq_filterMap {t : Table α} (h : t.keys.Nodup) :
    t.entries = t.keys.filterMap fun k => (t.get? k).map (Prod.mk k) := by
  rw [keys, List.filterMap_map]
  refine ((List.filterMap_congr fun e he => ?_).trans List.filterMap_some).symm
  rw [Function.comp_apply, (get?_eq_some_iff h e.1 e.2).2 he]
  rfl

/-- Tables with the same names in one order that hold the same under each are the same. -/
lemma eq_of_get?_eq {t t' : Table α} (h : t.keys.Nodup) (hkeys : t'.keys = t.keys)
    (hget : ∀ k, t'.get? k = t.get? k) : t' = t := by
  have hentries : t'.entries = t.entries := by
    rw [entries_eq_filterMap h, entries_eq_filterMap (hkeys ▸ h), hkeys]
    simp only [hget]
  cases t
  cases t'
  exact congrArg mk hentries

/-! ### Putting in -/

lemma mem_keys_put (t : Table α) (k k' : Text) (v : α) :
    k' ∈ (t.put k v).keys ↔ k' ∈ t.keys ∨ k' = k := by
  rw [keys_put]
  split
  · exact ⟨Or.inl, fun h => h.elim id fun he => he ▸ ‹_›⟩
  · simp

lemma keys_put_of_mem {t : Table α} {k : Text} (v : α) (h : k ∈ t.keys) :
    (t.put k v).keys = t.keys := by
  rw [keys_put, if_pos h]

lemma nodup_keys_put {t : Table α} (k : Text) (v : α) (h : t.keys.Nodup) :
    (t.put k v).keys.Nodup := by
  rw [keys_put]
  split
  · exact h
  · rename_i hk
    rw [List.nodup_append]
    refine ⟨h, List.nodup_singleton k, fun a ha b hb hab => hk ?_⟩
    rw [← List.mem_singleton.1 hb, ← hab]
    exact ha

lemma put_of_notMem {t : Table α} {k : Text} (v : α) (h : k ∉ t.keys) :
    t.put k v = ⟨t.entries ++ [(k, v)]⟩ := by
  obtain ⟨es⟩ := t
  rw [put, mk.injEq]
  induction es with
  | nil => rfl
  | cons e es ih =>
    simp only [keys, List.map_cons, List.mem_cons, not_or] at h ih
    rw [putEntries, if_neg (Ne.symm h.1), ih h.2]
    rfl

/-! ### Tables of entries -/

lemma putAll_append (t : Table α) (es es' : List (Text × α)) :
    t.putAll (es ++ es') = (t.putAll es).putAll es' := List.foldl_append ..

lemma mem_entries_put {t : Table α} {k : Text} {v : α} {e : Text × α}
    (h : e ∈ (t.put k v).entries) : e ∈ t.entries ∨ e = (k, v) := by
  obtain ⟨es⟩ := t
  change e ∈ putEntries k v es at h
  change e ∈ es ∨ e = (k, v)
  induction es with
  | nil => exact .inr (List.mem_singleton.1 h)
  | cons first rest ih =>
    rw [putEntries] at h
    split at h
    · rcases List.mem_cons.1 h with rfl | h
      · exact .inr rfl
      · exact .inl (List.mem_cons_of_mem _ h)
    · rcases List.mem_cons.1 h with rfl | h
      · exact .inl (List.mem_cons_self ..)
      · exact (ih h).imp_left (List.mem_cons_of_mem _)

/-- Each entry was there or was put in. -/
lemma mem_entries_putAll {t : Table α} {es : List (Text × α)} {e : Text × α}
    (h : e ∈ (t.putAll es).entries) : e ∈ t.entries ∨ e ∈ es := by
  induction es generalizing t with
  | nil => exact .inl h
  | cons first es ih =>
    rcases ih h with h | h
    · rcases mem_entries_put h with h | rfl
      · exact .inl h
      · exact .inr (List.mem_cons_self ..)
    · exact .inr (List.mem_cons_of_mem _ h)

lemma mem_keys_putAll (t : Table α) (es : List (Text × α)) (k : Text) :
    k ∈ (t.putAll es).keys ↔ k ∈ t.keys ∨ k ∈ es.map (·.1) := by
  induction es generalizing t with
  | nil => simp [putAll]
  | cons e es ih =>
    rw [putAll, List.foldl_cons, ← putAll, ih, mem_keys_put, List.map_cons, List.mem_cons, or_assoc]

lemma get?_putAll {t : Table α} {es : List (Text × α)} {k : Text} {v : α}
    (h : (t.putAll es).get? k = some v) : t.get? k = some v ∨ (k, v) ∈ es := by
  induction es generalizing t with
  | nil => exact .inl h
  | cons e es ih =>
    rw [putAll, List.foldl_cons, ← putAll] at h
    rcases ih h with h | h
    · rw [get?_put] at h
      split at h
      · rename_i hk
        cases h
        exact .inr (hk ▸ List.mem_cons_self ..)
      · exact .inl h
    · exact .inr (List.mem_cons_of_mem _ h)

/-- What stands in a table of entries is what one of them says. -/
lemma mem_of_get?_ofEntries {es : List (Text × α)} {k : Text} {v : α}
    (h : (ofEntries es).get? k = some v) : (k, v) ∈ es :=
  (get?_putAll h).resolve_left (by simp)

lemma mem_keys_ofEntries (es : List (Text × α)) (k : Text) :
    k ∈ (ofEntries es).keys ↔ k ∈ es.map (·.1) := by
  simp [ofEntries, mem_keys_putAll]

lemma nodup_keys_putAll {t : Table α} (es : List (Text × α)) (h : t.keys.Nodup) :
    (t.putAll es).keys.Nodup := by
  induction es generalizing t with
  | nil => exact h
  | cons e es ih => exact ih (nodup_keys_put _ _ h)

lemma nodup_keys_ofEntries (es : List (Text × α)) : (ofEntries es).keys.Nodup :=
  nodup_keys_putAll es List.nodup_nil

lemma putAll_of_nodup {t : Table α} {es : List (Text × α)}
    (h : (t.keys ++ es.map (·.1)).Nodup) : t.putAll es = ⟨t.entries ++ es⟩ := by
  induction es generalizing t with
  | nil => simp [putAll]
  | cons e es ih =>
    have hk : e.1 ∉ t.keys := fun hm =>
      (List.nodup_append.1 h).2.2 _ hm _ (List.mem_cons_self ..) rfl
    rw [putAll, List.foldl_cons, ← putAll, ih, put_of_notMem _ hk]
    · simp
    · rw [keys_put, if_neg hk]
      simpa using h

/-- Entries with distinct names make up a table as they are. -/
lemma ofEntries_of_nodup {es : List (Text × α)} (h : (es.map (·.1)).Nodup) :
    ofEntries es = ⟨es⟩ := by
  rw [ofEntries, putAll_of_nodup (by simpa using h)]
  rfl

lemma get?_ofEntries {es : List (Text × α)} (h : (es.map (·.1)).Nodup) {k : Text} {v : α} :
    (ofEntries es).get? k = some v ↔ (k, v) ∈ es := by
  rw [ofEntries_of_nodup h, get?_eq_some_iff h]

/-- A table with an entry for each of a list of names, made from the name alone. -/
lemma get?_ofEntries_map (f : Text → α) {names : List Text} (h : names.Nodup) (k : Text) :
    (ofEntries (names.map fun n => (n, f n))).get? k = if k ∈ names then some (f k) else none := by
  have hkeys : ((names.map fun n => (n, f n)).map (·.1)) = names := by simp [Function.comp_def]
  split
  · rename_i hk
    rw [get?_ofEntries (hkeys.symm ▸ h)]
    exact List.mem_map.2 ⟨k, hk, rfl⟩
  · rename_i hk
    rw [get?_eq_none_iff, mem_keys_ofEntries, hkeys]
    exact hk

end Table

end ApiDocs
