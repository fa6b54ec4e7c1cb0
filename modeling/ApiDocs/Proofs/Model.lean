import ApiDocs.Model
import ApiDocs.Proofs.Failing
import ApiDocs.Proofs.Sorting
import ApiDocs.Proofs.Table

/-!
# Laws of the entity model

Where qualified names are distinct, looking a name up finds the entity of that name. The index of
packages lists the types of each package in ascending order, and the table of ancestors has an entry
for each type that lists types only.
-/

namespace ApiDocs

namespace Supertypes

/-- A walk lists what holds of the types that it starts with and passes from types to supertypes. -/
lemma visit_induction {types : Supertypes} {P : Text → Prop}
    (hstep : ∀ n, P n → ∀ p ∈ types.parents n, types.has p = true → P p) {start : Text}
    {steps : Nat} {found queue : List Text} (hfound : ∀ a ∈ found, P a)
    (hqueue : ∀ n ∈ queue, types.has n = true → P n) :
    ∀ a ∈ visit types start found queue steps, P a := by
  induction steps generalizing found queue with
  | zero => exact hfound
  | succ steps ih =>
    cases queue with
    | nil => exact hfound
    | cons name rest =>
      have hrest : ∀ n ∈ rest, types.has n = true → P n := fun n hn =>
        hqueue n (List.mem_cons_of_mem _ hn)
      rw [visit]
      split
      · exact ih hfound hrest
      · rename_i hnew
        -- names that are no types stay in the queue, so only those that are ones need hold
        simp only [Bool.or_eq_true, not_or, Bool.not_eq_true, Bool.not_eq_false'] at hnew
        have hname : P name := hqueue name (List.mem_cons_self ..) hnew.2
        refine ih (fun a ha => ?_) fun n hn hhas => ?_
        · rcases List.mem_append.1 ha with ha | ha
          · exact hfound a ha
          · rw [List.mem_singleton.1 ha]
            exact hname
        · rcases List.mem_append.1 hn with hn | hn
          · exact hrest n hn hhas
          · exact hstep name hname n hn hhas

/-- The ancestors are reached from the declared supertypes. -/
lemma ancestorsOf_induction {types : Supertypes} {name : Text} {P : Text → Prop}
    (hparents : ∀ p ∈ types.parents name, types.has p = true → P p)
    (hstep : ∀ n, P n → ∀ p ∈ types.parents n, types.has p = true → P p) :
    ∀ a ∈ types.ancestorsOf name, P a :=
  visit_induction hstep (fun _ ha => absurd ha List.not_mem_nil) hparents

lemma mem_keys_of_mem_ancestorsOf {types : Supertypes} {name a : Text}
    (h : a ∈ types.ancestorsOf name) : a ∈ types.keys :=
  (Table.has_iff_mem_keys _ _).1
    (ancestorsOf_induction (fun _ _ hp => hp) (fun _ _ _ _ hp => hp) a h)

/-- The ancestors depend on what is found under names, and on how many supertypes there are. -/
lemma ancestorsOf_congr {types types' : Supertypes} (h : ∀ n, types.get? n = types'.get? n)
    (hcount : types.edgeCount = types'.edgeCount) (name : Text) :
    types.ancestorsOf name = types'.ancestorsOf name := by
  have hparents (n : Text) : types.parents n = types'.parents n := by rw [parents, parents, h]
  have hhas (n : Text) : types.has n = types'.has n := by rw [Table.has, Table.has, h]
  rw [ancestorsOf, ancestorsOf, hcount, hparents]
  generalize types'.edgeCount = steps
  generalize ([] : List Text) = found
  generalize types'.parents name = queue
  induction steps generalizing found queue with
  | zero => rfl
  | succ steps ih =>
    cases queue with
    | nil => rfl
    | cons n rest =>
      rw [visit, visit, hhas, hparents]
      simp only [ih]

end Supertypes

namespace Model

/-! ### Looking up -/

lemma has_iff_mem_names (m : Model) (n : Text) : m.has n = true ↔ n ∈ m.names := by
  simp [has, find?, names]

/-- Where names are distinct, an entity is found under its name and under no other. -/
lemma find?_eq_some_iff {m : Model} (h : m.names.Nodup) {n : Text} {e : Entity} :
    m.find? n = some e ↔ e ∈ m.entities ∧ e.qualifiedName = n := by
  constructor
  · intro hfind
    exact ⟨List.mem_of_find?_eq_some hfind, by simpa using List.find?_some hfind⟩
  · rintro ⟨he, rfl⟩
    have hhas : m.has e.qualifiedName = true :=
      (has_iff_mem_names m _).2 (List.mem_map.2 ⟨e, he, rfl⟩)
    obtain ⟨e', hfind⟩ := Option.isSome_iff_exists.1 hhas
    have hname : e'.qualifiedName = e.qualifiedName := by simpa using List.find?_some hfind
    rw [hfind, List.inj_on_of_nodup_map h (List.mem_of_find?_eq_some hfind) he hname]

lemma find?_of_mem {m : Model} (h : m.names.Nodup) {e : Entity} (he : e ∈ m.entities) :
    m.find? e.qualifiedName = some e :=
  (find?_eq_some_iff h).2 ⟨he, rfl⟩

lemma mem_entities_of_mem_membersOf {m : Model} {type : Text} {o : Entity}
    (ho : o ∈ m.membersOf type) :
    o ∈ m.entities := by
  rw [membersOf] at ho
  split at ho
  · obtain ⟨n, -, hn⟩ := List.mem_filterMap.1 ho
    exact List.mem_of_find?_eq_some hn
  · cases ho

lemma asType?_eq_some_iff {e : Entity} {t : TypeEntity} :
    e.asType? = some t ↔ t.entity = e ∧ e.category = .type t.info := by
  obtain ⟨te, ti⟩ := t
  rw [Entity.asType?, Entity.typeInfo?]
  cases e.category <;> simp [eq_comm]

lemma mem_types_iff {m : Model} {t : TypeEntity} :
    t ∈ m.types ↔ t.entity ∈ m.entities ∧ t.entity.category = .type t.info := by
  simp only [types, List.mem_filterMap, asType?_eq_some_iff]
  constructor
  · rintro ⟨e, he, rfl, hc⟩
    exact ⟨he, hc⟩
  · rintro ⟨he, hc⟩
    exact ⟨_, he, rfl, hc⟩

/-- The names of the types, in order, are among the names of the model. -/
lemma typeNames_sublist (m : Model) : (m.types.map (·.qualifiedName)).Sublist m.names := by
  rw [types, names]
  induction m.entities with
  | nil => exact .slnil
  | cons e es ih =>
    rw [List.filterMap_cons, List.map_cons]
    cases he : e.asType? with
    | none => exact ih.cons _
    | some t =>
      obtain ⟨rfl, -⟩ := asType?_eq_some_iff.1 he
      exact ih.cons_cons _

lemma typeNames_nodup {m : Model} (h : m.names.Nodup) : (m.types.map (·.qualifiedName)).Nodup :=
  h.sublist (typeNames_sublist m)

lemma findType?_eq_some_iff {m : Model} (h : m.names.Nodup)
    (hne : ∀ t ∈ m.types, t.qualifiedName ≠ []) {n : Text} {t : TypeEntity} :
    m.findType? n = some t ↔ t ∈ m.types ∧ t.qualifiedName = n := by
  rw [findType?]
  split
  · rename_i hn
    exact iff_of_false (by simp) fun ht => hne t ht.1 (ht.2.trans hn)
  · rw [Option.bind_eq_some_iff, mem_types_iff]
    simp only [find?_eq_some_iff h, asType?_eq_some_iff]
    constructor
    · rintro ⟨e, ⟨he, hname⟩, rfl, hc⟩
      exact ⟨⟨he, hc⟩, hname⟩
    · rintro ⟨⟨he, hc⟩, hname⟩
      exact ⟨_, ⟨he, hname⟩, rfl, hc⟩

/-! ### The index of packages -/

/-- The names of the types that say that they are in a package, in order. -/
def typeNamesIn (m : Model) (package : Text) : List Text :=
  (m.types.filter (·.info.package = package)).map (·.qualifiedName)

/-- Grouping appends to what stands under a package the types that are in it. -/
lemma get?_foldl_group (ts : List TypeEntity) (t : Table (List Text)) (p : Text) :
    (ts.foldl (fun (t : Table (List Text)) e =>
        t.update e.info.package [] (· ++ [e.qualifiedName])) t).get? p =
      match (ts.filter (·.info.package = p)).map (·.qualifiedName) with
      | [] => t.get? p
      | n :: ns => some ((t.get? p).getD [] ++ n :: ns) := by
  induction ts generalizing t with
  | nil => rfl
  | cons e ts ih =>
    rw [List.foldl_cons, ih, Table.update, Table.get?_put]
    by_cases hp : e.info.package = p
    · subst hp
      simp only [List.filter_cons_of_pos, decide_true, List.map_cons, if_true, Option.getD_some,
        List.append_assoc, List.singleton_append]
      split <;> simp_all
    · rw [if_neg (Ne.symm hp), List.filter_cons_of_neg (by simpa using hp)]

lemma lookup_map_snd {α β : Type} (f : α → β) (es : List (Text × α)) (k : Text) :
    (es.map fun e => (e.1, f e.2)).lookup k = (es.lookup k).map f := by
  induction es with
  | nil => rfl
  | cons e es ih =>
    rw [List.map_cons, List.lookup_cons, List.lookup_cons, ih]
    cases k == e.1 <;> rfl

/-- The index has an entry for each package with types: their names in ascending order. -/
theorem get?_packageIndex (m : Model) (p : Text) :
    m.packageIndex.get? p =
      if m.typeNamesIn p = [] then none else some (sortNames (m.typeNamesIn p)) := by
  rw [packageIndex, Table.get?, lookup_map_snd, ← Table.get?, get?_foldl_group, typeNamesIn]
  cases (m.types.filter (·.info.package = p)).map (·.qualifiedName) <;> simp

lemma mem_typeNamesIn {m : Model} {p n : Text} :
    n ∈ m.typeNamesIn p ↔ ∃ t ∈ m.types, t.info.package = p ∧ t.qualifiedName = n := by
  simp [typeNamesIn, and_assoc]

lemma mem_typeNamesIn_iff {m : Model} {p n : Text} :
    n ∈ m.typeNamesIn p ↔ ∃ t ∈ m.types, t.qualifiedName = n ∧ t.info.package = p := by
  simp [mem_typeNamesIn, and_comm]

lemma typeNamesIn_nodup {m : Model} (h : m.names.Nodup) (p : Text) : (m.typeNamesIn p).Nodup :=
  (typeNames_nodup h).sublist (List.filter_sublist.map _)

/-- What stands in the index under a package are the types that say that they are in it. -/
lemma get?_packageIndex_eq_some_iff {m : Model} (h : m.names.Nodup) (p : Text)
    (names : List Text) : m.packageIndex.get? p = some names ↔
      names ≠ [] ∧ names.Pairwise (· < ·) ∧
        ∀ n, n ∈ names ↔ ∃ t ∈ m.types, t.qualifiedName = n ∧ t.info.package = p := by
  have hsorted : (sortNames (m.typeNamesIn p)).Pairwise (· < ·) :=
    sortNames_strict (typeNamesIn_nodup h p)
  rw [get?_packageIndex]
  split
  · rename_i hnone
    refine iff_of_false (by simp) fun ⟨hne, _, hall⟩ => ?_
    obtain ⟨n, hn⟩ := List.exists_mem_of_ne_nil _ hne
    have := mem_typeNamesIn_iff.2 ((hall n).1 hn)
    rw [hnone] at this
    exact List.not_mem_nil this
  · rename_i hsome
    rw [Option.some_inj]
    constructor
    · rintro rfl
      exact ⟨fun hnil => hsome (List.Perm.nil_eq (hnil ▸ sortNames_perm _)).symm, hsorted,
        fun n => mem_sortNames.trans mem_typeNamesIn_iff⟩
    · rintro ⟨-, hasc, hall⟩
      refine ascending_ext hsorted hasc fun n => ?_
      exact (mem_sortNames.trans mem_typeNamesIn_iff).trans (hall n).symm

lemma nodup_keys_foldl_group (ts : List TypeEntity) {t : Table (List Text)} (h : t.keys.Nodup) :
    (ts.foldl (fun (t : Table (List Text)) e =>
      t.update e.info.package [] (· ++ [e.qualifiedName])) t).keys.Nodup := by
  induction ts generalizing t with
  | nil => exact h
  | cons e ts ih => exact ih (Table.nodup_keys_put _ _ h)

/-- The index has one entry for each package. -/
lemma nodup_keys_packageIndex (m : Model) : m.packageIndex.keys.Nodup := by
  rw [packageIndex, Table.keys, List.map_map]
  exact nodup_keys_foldl_group m.types (t := .empty) List.nodup_nil

/-- The entries of the index say which types are in a package. -/
lemma mem_entries_packageIndex {m : Model} (h : m.names.Nodup) {p : Text} {names : List Text} :
    (p, names) ∈ m.packageIndex.entries ↔ names ≠ [] ∧ names.Pairwise (· < ·) ∧
      ∀ n, n ∈ names ↔ ∃ t ∈ m.types, t.qualifiedName = n ∧ t.info.package = p := by
  rw [← Table.get?_eq_some_iff (nodup_keys_packageIndex m), get?_packageIndex_eq_some_iff h]

/-! ### The types that the index lists -/

lemma of_findType? {m : Model} {n : Text} {t : TypeEntity} (h : m.findType? n = some t) :
    t ∈ m.types ∧ t.qualifiedName = n := by
  rw [findType?] at h
  split at h
  · cases h
  · obtain ⟨e, he, ht⟩ := Option.bind_eq_some_iff.1 h
    obtain ⟨rfl, -⟩ := asType?_eq_some_iff.1 ht
    exact ⟨List.mem_filterMap.2 ⟨_, List.mem_of_find?_eq_some he, ht⟩,
      by simpa using List.find?_some he⟩

/-- Looking up names leaves out those that are not of types, and changes no order. -/
lemma map_filterMap_findType?_sublist (m : Model) (names : List Text) :
    ((names.filterMap m.findType?).map (·.qualifiedName)).Sublist names := by
  induction names with
  | nil => exact .slnil
  | cons n names ih =>
    rw [List.filterMap_cons]
    cases ht : m.findType? n with
    | none => exact ih.cons _
    | some t =>
      rw [List.map_cons, (of_findType? ht).2]
      exact ih.cons_cons _

/-- Types are listed in the order of the index. -/
lemma typesInPackage_ascending {m : Model} {p : Text}
    (h : ∀ names, m.packageTypes.get? p = some names → names.Pairwise (· < ·)) :
    (m.typesInPackage p).Pairwise (·.qualifiedName < ·.qualifiedName) := by
  rw [typesInPackage]
  cases hget : m.packageTypes.get? p with
  | none => exact .nil
  | some names =>
    exact List.pairwise_map.1 ((h names hget).sublist (map_filterMap_findType?_sublist m _))

/-- Where the index has what an index made anew would have, the types of a package are listed. -/
lemma mem_typesInPackage_iff {m : Model} (h : m.names.Nodup)
    (hne : ∀ t ∈ m.types, t.qualifiedName ≠ []) {p : Text}
    (hindex : m.packageTypes.get? p = m.packageIndex.get? p) {t : TypeEntity} :
    t ∈ m.typesInPackage p ↔ t ∈ m.types ∧ t.info.package = p := by
  have hlisted (n : Text) :
      n ∈ (m.packageTypes.get? p).getD [] ↔
        ∃ t ∈ m.types, t.qualifiedName = n ∧ t.info.package = p := by
    rw [hindex, get?_packageIndex, ← mem_typeNamesIn_iff]
    split
    · rename_i hnone
      rw [hnone]
      exact Iff.rfl
    · exact mem_sortNames
  rw [typesInPackage, List.mem_filterMap]
  constructor
  · rintro ⟨n, hn, hfind⟩
    obtain ⟨ht, rfl⟩ := of_findType? hfind
    obtain ⟨t', ht', hname, hpackage⟩ := (hlisted _).1 hn
    rw [List.inj_on_of_nodup_map (typeNames_nodup h) ht ht' hname.symm]
    exact ⟨ht', hpackage⟩
  · rintro ⟨ht, hpackage⟩
    exact ⟨t.qualifiedName, (hlisted _).2 ⟨t, ht, rfl, hpackage⟩,
      (findType?_eq_some_iff h hne).2 ⟨ht, rfl⟩⟩

/-! ### The table of ancestors -/

lemma keys_supertypes {m : Model} (h : m.names.Nodup) :
    m.supertypes.keys = m.types.map (·.qualifiedName) := by
  rw [supertypes, Table.ofEntries_of_nodup]
  · simp [Table.keys]
  · simpa [Function.comp_def] using typeNames_nodup h

lemma keys_ancestors (types : Supertypes) : types.ancestors.keys = types.keys := by
  simp [Supertypes.ancestors, Table.keys]

/-- What stands in the table under a type are its ancestors. -/
lemma get?_ancestors (types : Supertypes) (n : Text) :
    types.ancestors.get? n = if n ∈ types.keys then some (types.ancestorsOf n) else none := by
  rw [Supertypes.ancestors, Table.get?]
  induction types.keys with
  | nil => rfl
  | cons k ks ih =>
    rw [List.map_cons, List.lookup_cons, ih]
    by_cases hk : n = k
    · simp [hk]
    · simp [hk, beq_false_of_ne hk]

end Model

end ApiDocs
