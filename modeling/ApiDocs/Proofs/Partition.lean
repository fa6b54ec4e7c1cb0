import ApiDocs.Extraction
import ApiDocs.Proofs.Model

/-!
# Partitions and their merging

Entities are put into the partition of their package, in order, and the partitions are merged in
the order of the packages. This succeeds if all names are distinct, and otherwise some name is
refused, in its partition or in the merging.
-/

namespace ApiDocs

/-- Grouping a list by a key that takes the values of a list of keys loses nothing. -/
lemma perm_flatMap_filter {α β : Type} [DecidableEq β] (f : α → β) {keys : List β}
    (hkeys : keys.Nodup) {as : List α} (h : ∀ a ∈ as, f a ∈ keys) :
    (keys.flatMap fun k => as.filter (f · = k)).Perm as := by
  induction as with
  | nil => simp
  | cons a as ih =>
    obtain ⟨before, after, rfl⟩ := List.append_of_mem (h a (List.mem_cons_self ..))
    have ih := ih fun b hb => h b (List.mem_cons_of_mem _ hb)
    have hother {ks : List β} (hk : f a ∉ ks) :
        ks.flatMap (fun k => (a :: as).filter (f · = k)) =
          ks.flatMap fun k => as.filter (f · = k) := by
      refine List.flatMap_congr fun k hk' => List.filter_cons_of_neg ?_
      simpa using fun heq : f a = k => hk (heq ▸ hk')
    obtain ⟨hbefore, hafter⟩ : f a ∉ before ∧ f a ∉ after := by
      simp only [List.nodup_append, List.nodup_cons] at hkeys
      exact ⟨fun hm => hkeys.2.2 _ hm _ (List.mem_cons_self ..) rfl, hkeys.2.1.1⟩
    rw [List.flatMap_append, List.flatMap_cons] at ih ⊢
    rw [hother hbefore, hother hafter, List.filter_cons_of_pos (by simp)]
    exact List.perm_middle.trans (ih.cons a)

/-- Grouping a list by a key loses only what has none of the keys. -/
lemma perm_flatMap_filter_of_iff {α β : Type} [DecidableEq β] (f : α → β) {keys : List β}
    (hkeys : keys.Nodup) {as : List α} {p : α → Bool} (hp : ∀ a ∈ as, p a = true ↔ f a ∈ keys) :
    (keys.flatMap fun k => as.filter (f · = k)).Perm (as.filter p) := by
  have hgroups : (keys.flatMap fun k => as.filter (f · = k)) =
      keys.flatMap fun k => (as.filter p).filter (f · = k) := by
    refine List.flatMap_congr fun k hk => ?_
    rw [List.filter_filter]
    refine List.filter_congr fun a ha => ?_
    rw [Bool.eq_iff_iff, Bool.and_eq_true, decide_eq_true_eq, hp a ha]
    exact ⟨fun heq => ⟨heq, heq ▸ hk⟩, And.left⟩
  rw [hgroups]
  refine perm_flatMap_filter f hkeys fun a ha => ?_
  obtain ⟨hmem, hpass⟩ := List.mem_filter.1 ha
  exact (hp a hmem).1 hpass

namespace Model

/-! ### Adding entities -/

lemma add_ok {m : Model} {e : Entity} (h : e.qualifiedName ∉ m.names) :
    m.add e = .ok { m with entities := m.entities ++ [e] } := by
  rw [add, if_neg (mt (has_iff_mem_names m _).1 h)]

lemma add_error {m : Model} {e : Entity} (h : e.qualifiedName ∈ m.names) :
    m.add e = .error (.duplicate e.qualifiedName) := by
  rw [add, if_pos ((has_iff_mem_names m _).2 h)]

/-- The entities of a model without tables. -/
def ofEntities (es : List Entity) : Model := { entities := es }

lemma addAll_ok {m : Model} {es : List Entity}
    (h : (m.names ++ es.map (·.qualifiedName)).Nodup) :
    m.addAll es = .ok { m with entities := m.entities ++ es } := by
  induction es generalizing m with
  | nil => simp [addAll]
  | cons e es ih =>
    have hnew : e.qualifiedName ∉ m.names := fun hm =>
      (List.nodup_append.1 h).2.2 _ hm _ (List.mem_cons_self ..) rfl
    rw [addAll, add_ok hnew, ok_bind, ih (by simpa [names] using h)]
    simp

lemma nodup_names_concat {m : Model} (hm : m.names.Nodup) {e : Entity}
    (h : e.qualifiedName ∉ m.names) :
    ({ m with entities := m.entities ++ [e] } : Model).names.Nodup := by
  rw [names, List.map_append, List.map_singleton, ← List.concat_eq_append, List.nodup_concat]
  exact ⟨h, hm⟩

/-- Adding entities fails at a name that is then there twice. -/
lemma addAll_error {m : Model} {es : List Entity} (hm : m.names.Nodup)
    (h : ¬ (m.names ++ es.map (·.qualifiedName)).Nodup) :
    ∃ n, m.addAll es = .error (.duplicate n) ∧
      2 ≤ (m.names ++ es.map (·.qualifiedName)).count n := by
  induction es generalizing m with
  | nil => exact absurd (by simpa using hm) h
  | cons e es ih =>
    by_cases hmem : e.qualifiedName ∈ m.names
    · refine ⟨_, by rw [addAll, add_error hmem, error_bind], ?_⟩
      have hfirst := List.one_le_count_iff.2 hmem
      rw [List.map_cons, List.count_append, List.count_cons_self]
      omega
    · have hnames : ({ m with entities := m.entities ++ [e] } : Model).names ++
          es.map (·.qualifiedName) = m.names ++ (e :: es).map (·.qualifiedName) := by
        simp [names]
      obtain ⟨n, herror, hn⟩ := ih (nodup_names_concat hm hmem) (by rwa [hnames])
      rw [hnames] at hn
      exact ⟨n, by rw [addAll, add_ok hmem, ok_bind, herror], hn⟩

lemma addAll_append (m : Model) (es fs : List Entity) :
    m.addAll (es ++ fs) = (m.addAll es >>= (addAll · fs)) := by
  induction es generalizing m with
  | nil => rfl
  | cons e es ih =>
    rw [List.cons_append, addAll, addAll]
    cases m.add e with
    | error f => rfl
    | ok m' => exact ih m'

/-- Merging models without tables adds their entities one after the other. -/
lemma foldlM_absorb_ofEntities (m : Model) (ess : List (List Entity)) :
    (ess.map ofEntities).foldlM absorb m = m.addAll ess.flatten := by
  induction ess generalizing m with
  | nil => rfl
  | cons es ess ih =>
    have habsorb : m.absorb (ofEntities es) = m.addAll es := by
      rw [absorb, ofEntities]
      cases m.addAll es <;> rfl
    rw [List.map_cons, List.foldlM_cons, habsorb, List.flatten_cons, addAll_append]
    exact bind_congr fun m' => ih m'

end Model

namespace Extraction

/-! ### Filling the partitions -/

def placedIn (package : Text) (placed : List (Text × Entity)) : List Entity :=
  (placed.filter (·.1 = package)).map (·.2)

lemma placedIn_cons (package : Text) (q : Text × Entity) (placed : List (Text × Entity)) :
    placedIn package (q :: placed) =
      if q.1 = package then q.2 :: placedIn package placed else placedIn package placed := by
  by_cases h : q.1 = package <;> simp [placedIn, h]

/-- The model with more entities at its end. -/
def grown (m : Model) (es : List Entity) : Model := { m with entities := m.entities ++ es }

/-- Placing an entity adds it to its partition and to no other one. -/
lemma addTo_ok {parts parts' : Table Model} {q : Text × Entity} (h : addTo parts q = .ok parts') :
    parts'.keys = parts.keys ∧
      ∀ p, parts'.get? p = (parts.get? p).map (grown · (placedIn p [q])) := by
  obtain ⟨part, hpart, h⟩ := bind_eq_ok_iff.1 h
  obtain ⟨part', hadd, h⟩ := bind_eq_ok_iff.1 h
  cases h
  have hget : parts.get? q.1 = some part := by
    rw [require] at hpart
    cases hq : parts.get? q.1 with
    | none => rw [hq] at hpart; cases hpart
    | some m => rw [hq] at hpart; cases hpart; rfl
  have hgrown : part' = grown part [q.2] := by
    by_cases hnew : q.2.qualifiedName ∈ part.names
    · rw [Model.add_error hnew] at hadd
      cases hadd
    · rw [Model.add_ok hnew] at hadd
      cases hadd
      rfl
  refine ⟨Table.keys_put_of_mem _ (Table.mem_keys_of_get? hget), fun p => ?_⟩
  rw [Table.get?_put]
  split
  · rename_i hp
    subst hp
    simp [hget, hgrown, placedIn]
  · rename_i hp
    cases hget' : parts.get? p <;> simp [placedIn, grown, Ne.symm hp]

lemma foldlM_addTo_ok {parts parts' : Table Model} {placed : List (Text × Entity)}
    (h : placed.foldlM addTo parts = .ok parts') :
    parts'.keys = parts.keys ∧
      ∀ p, parts'.get? p = (parts.get? p).map (grown · (placedIn p placed)) := by
  induction placed generalizing parts with
  | nil =>
    cases h
    exact ⟨rfl, fun p => by cases parts'.get? p <;> simp [placedIn, grown]⟩
  | cons q placed ih =>
    rw [List.foldlM_cons] at h
    obtain ⟨mid, hq, h⟩ := bind_eq_ok_iff.1 h
    obtain ⟨hkeys, hget⟩ := addTo_ok hq
    obtain ⟨hkeys', hget'⟩ := ih h
    refine ⟨hkeys'.trans hkeys, fun p => ?_⟩
    rw [hget', hget, Option.map_map]
    congr 1
    funext m
    by_cases hp : q.1 = p <;> simp [placedIn, grown, hp]

/-- Placing an entity fails at a name that its partition has already. -/
lemma addTo_error {parts : Table Model} {q : Text × Entity} {f : Failure}
    (hq : q.1 ∈ parts.keys) (h : addTo parts q = .error f) :
    f = .duplicate q.2.qualifiedName ∧
      ∃ m, parts.get? q.1 = some m ∧ q.2.qualifiedName ∈ m.names := by
  obtain ⟨m, hm⟩ := Table.exists_of_mem_keys hq
  by_cases hnew : q.2.qualifiedName ∈ m.names
  · rw [addTo, require, hm, ok_bind, Model.add_error hnew] at h
    cases h
    exact ⟨rfl, m, hm, hnew⟩
  · rw [addTo, require, hm, ok_bind, Model.add_ok hnew] at h
    cases h

lemma foldlM_addTo_error {parts : Table Model} {placed : List (Text × Entity)} {f : Failure}
    (hplaced : ∀ q ∈ placed, q.1 ∈ parts.keys) (h : placed.foldlM addTo parts = .error f) :
    (∃ n, f = .duplicate n) ∧
      ∃ p m, parts.get? p = some m ∧ ¬ (grown m (placedIn p placed)).names.Nodup := by
  induction placed generalizing parts with
  | nil => cases h
  | cons q placed ih =>
    rw [List.foldlM_cons] at h
    rcases bind_eq_error_iff.1 h with hq | ⟨mid, hq, h⟩
    · obtain ⟨rfl, m, hm, hmem⟩ := addTo_error (hplaced q (List.mem_cons_self ..)) hq
      refine ⟨⟨_, rfl⟩, q.1, m, hm, fun hnodup => ?_⟩
      rw [placedIn_cons, if_pos rfl, Model.names, grown, List.map_append] at hnodup
      exact (List.nodup_append.1 hnodup).2.2 _ hmem _ (List.mem_cons_self ..) rfl
    · obtain ⟨hkeys, hget⟩ := addTo_ok hq
      obtain ⟨hf, p, m', hm', hnodup⟩ :=
        ih (fun q' hq' => hkeys ▸ hplaced q' (List.mem_cons_of_mem _ hq')) h
      rw [hget] at hm'
      obtain ⟨m, hm, rfl⟩ := Option.map_eq_some_iff.1 hm'
      refine ⟨hf, p, m, hm, fun hn => hnodup ?_⟩
      by_cases hp : q.1 = p <;> simpa [placedIn, grown, hp] using hn

/-! ### Merging the partitions -/

/-- Fill the partitions of the packages and merge them. -/
def mergePlaced (packages : List Text) (placed : List (Text × Entity)) : Except Failure Model := do
  let parts ← placed.foldlM addTo (.ofEntries (packages.map fun p => (p, {})))
  Model.merge (parts.entries.map (·.2))

variable {packages : List Text} {placed : List (Text × Entity)}

lemma get?_emptyParts {p : Text} {m : Model}
    (h : (Table.ofEntries (packages.map fun p => (p, ({} : Model)))).get? p = some m) : m = {} := by
  obtain ⟨q, -, heq⟩ := List.mem_map.1 (Table.mem_of_get?_ofEntries h)
  cases heq
  rfl

lemma mem_keys_emptyParts {p : Text} :
    p ∈ (Table.ofEntries (packages.map fun p => (p, ({} : Model)))).keys ↔ p ∈ packages := by
  rw [Table.mem_keys_ofEntries, List.map_map]
  simp

/-- Filled partitions hold what is placed in them. -/
lemma entries_of_filled {parts : Table Model}
    (h : placed.foldlM addTo (.ofEntries (packages.map fun p => (p, {}))) = .ok parts) :
    parts.entries.map (·.2) =
      (parts.keys.map fun p => placedIn p placed).map Model.ofEntities := by
  obtain ⟨hkeys, hget⟩ := foldlM_addTo_ok h
  have hnodup : parts.keys.Nodup := hkeys ▸ Table.nodup_keys_ofEntries _
  rw [List.map_map, Table.keys, List.map_map]
  refine List.map_congr_left fun e he => ?_
  have hfound := (Table.get?_eq_some_iff hnodup e.1 e.2).2 he
  rw [hget] at hfound
  obtain ⟨m, hm, hfound⟩ := Option.map_eq_some_iff.1 hfound
  rw [← hfound, get?_emptyParts hm]
  simp [grown, Model.ofEntities]

lemma names_placed_perm {keys : List Text} (hkeys : keys.Nodup)
    (hplaced : ∀ q ∈ placed, q.1 ∈ keys) :
    ((keys.flatMap fun p => placedIn p placed).map (·.qualifiedName)).Perm
      (placed.map (·.2.qualifiedName)) := by
  have h := (perm_flatMap_filter Prod.fst hkeys hplaced).map fun q => q.2.qualifiedName
  rw [List.map_flatMap] at h ⊢
  simpa only [placedIn, List.map_map, Function.comp_def] using h

/-- With distinct names the merged model holds, package by package, what is placed there. -/
lemma mergePlaced_ok (hpackages : packages.Nodup) (hplaced : ∀ q ∈ placed, q.1 ∈ packages)
    (h : (placed.map (·.2.qualifiedName)).Nodup) :
    mergePlaced packages placed =
      .ok (.ofEntities (packages.flatMap fun p => placedIn p placed)) := by
  have hsub (p : Text) : ((placedIn p placed).map (·.qualifiedName)).Nodup := by
    rw [placedIn, List.map_map]
    exact h.sublist (List.filter_sublist.map _)
  rw [mergePlaced]
  cases hfold : placed.foldlM addTo (.ofEntries (packages.map fun p => (p, ({} : Model)))) with
  | error f =>
    obtain ⟨-, p, m, hm, hnodup⟩ :=
      foldlM_addTo_error (fun q hq => mem_keys_emptyParts.2 (hplaced q hq)) hfold
    refine absurd ?_ hnodup
    rw [get?_emptyParts hm]
    simpa [grown, Model.names] using hsub p
  | ok parts =>
    have hkeys : parts.keys = packages := by
      rw [(foldlM_addTo_ok hfold).1, Table.ofEntries_of_nodup (by simpa [Function.comp_def])]
      simp [Table.keys, Function.comp_def]
    rw [ok_bind, entries_of_filled hfold, Model.merge, Model.foldlM_absorb_ofEntities,
      Model.addAll_ok, hkeys, List.flatMap_def]
    · rfl
    · rw [hkeys, ← List.flatMap_def]
      exact (names_placed_perm hpackages hplaced).nodup_iff.2 h

/-- With a name that is not distinct the merging fails. -/
lemma mergePlaced_error (hplaced : ∀ q ∈ placed, q.1 ∈ packages)
    (h : ¬ (placed.map (·.2.qualifiedName)).Nodup) :
    ∃ n, mergePlaced packages placed = .error (.duplicate n) := by
  rw [mergePlaced]
  cases hfold : placed.foldlM addTo (.ofEntries (packages.map fun p => (p, ({} : Model)))) with
  | error f =>
    obtain ⟨⟨n, rfl⟩, -⟩ :=
      foldlM_addTo_error (fun q hq => mem_keys_emptyParts.2 (hplaced q hq)) hfold
    exact ⟨n, rfl⟩
  | ok parts =>
    rw [ok_bind, entries_of_filled hfold, Model.merge, Model.foldlM_absorb_ofEntities]
    refine (Model.addAll_error (m := {}) List.nodup_nil fun hnodup => h ?_).imp fun _ => And.left
    have hkeys := (foldlM_addTo_ok hfold).1
    rw [← List.flatMap_def] at hnodup
    refine (names_placed_perm (hkeys ▸ Table.nodup_keys_ofEntries _)
      fun q hq => ?_).nodup_iff.1 hnodup
    rw [hkeys]
    exact mem_keys_emptyParts.2 (hplaced q hq)

end Extraction

end ApiDocs
