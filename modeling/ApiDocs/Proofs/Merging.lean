import ApiDocs.Proofs.Ancestors
import ApiDocs.Proofs.SharedTable
import Mathlib.Data.List.Pairwise

/-!
# Merging models

Models can be merged if no name is in two of them; otherwise a name that is in two is blamed. The
tables of the parts are put together and not computed anew. That loses nothing: two extracted models
that can be merged have no package in common, and a walk over supertypes does not leave a model that
inherits from no other one.
-/

namespace ApiDocs

namespace Supertypes

variable {types part : Supertypes}

/-- In a part of a table that holds all that a walk can meet, the walk goes the same way. -/
lemma visit_part (hsame : ∀ n ∈ part.keys, types.get? n = part.get? n)
    (hclosed : ∀ n ∈ part.keys, ∀ p ∈ part.parents n, p ∈ types.keys → p ∈ part.keys)
    {start : Text} {steps : Nat} {found queue : List Text}
    (hqueue : ∀ n ∈ queue, n ∈ types.keys → n ∈ part.keys) :
    visit types start found queue steps = visit part start found queue steps := by
  have hhas {n : Text} (hn : n ∈ types.keys → n ∈ part.keys) : types.has n = part.has n := by
    by_cases hpart : n ∈ part.keys
    · rw [Table.has, Table.has, hsame n hpart]
    · rw [Bool.eq_iff_iff, Table.has_iff_mem_keys, Table.has_iff_mem_keys]
      exact iff_of_false (fun hkey => hpart (hn hkey)) hpart
  induction steps generalizing found queue with
  | zero => rfl
  | succ steps ih =>
    cases queue with
    | nil => rfl
    | cons name rest =>
      have hrest : ∀ n ∈ rest, n ∈ types.keys → n ∈ part.keys := fun n hn =>
        hqueue n (List.mem_cons_of_mem _ hn)
      rw [visit, visit, hhas (hqueue name (List.mem_cons_self ..))]
      split
      · exact ih hrest
      · rename_i hnew
        have hkey : name ∈ part.keys := by
          simp only [Bool.or_eq_true, not_or, Bool.not_eq_true, Bool.not_eq_false'] at hnew
          exact (Table.has_iff_mem_keys _ _).1 hnew.2
        have hparents : types.parents name = part.parents name := by
          rw [parents, parents, hsame name hkey]
        rw [hparents]
        apply ih
        intro n hn
        rcases List.mem_append.1 hn with hn | hn
        · exact hrest n hn
        · exact hclosed name hkey n hn

/-- In a part of a table that no walk leaves, a type has the ancestors that it has in the whole. -/
lemma ancestorsOf_part (hkeys : types.keys.Nodup) (hpart : part.keys.Nodup)
    (hsame : ∀ n ∈ part.keys, types.get? n = part.get? n)
    (hclosed : ∀ n ∈ part.keys, ∀ p ∈ part.parents n, p ∈ types.keys → p ∈ part.keys)
    {name : Text} (hname : name ∈ part.keys) : types.ancestorsOf name = part.ancestorsOf name := by
  have hparents : types.parents name = part.parents name := by
    rw [parents, parents, hsame name hname]
  have hhas : part.has name = true := (Table.has_iff_mem_keys _ _).2 hname
  have hwhole : types.has name = true := by
    rwa [Table.has, hsame name hname]
  -- both walks are compared with walks of one length
  let steps := max types.edgeCount part.edgeCount
  calc types.ancestorsOf name
    _ = visit types name [] (types.parents name) steps :=
        (visit_of_le hkeys (edgeCount_eq_add hkeys hwhole).ge (Nat.le_max_left ..)).symm
    _ = visit part name [] (part.parents name) steps := by
        rw [hparents]
        exact visit_part hsame hclosed (hclosed name hname)
    _ = part.ancestorsOf name :=
        visit_of_le hpart (edgeCount_eq_add hpart hhas).ge (Nat.le_max_right ..)

end Supertypes

namespace Model

/-! ### Names in several models -/

/-- In how many of the models a name is. -/
def occurrences (parts : List Model) (n : Text) : Nat := parts.countP (n ∈ ·.names)

/-- Where names are distinct in each model, a name stands as often in all of them together as there
are models that have it. -/
lemma count_flatMap_names {parts : List Model} (h : ∀ m ∈ parts, m.names.Nodup) (n : Text) :
    (parts.flatMap names).count n = occurrences parts n := by
  induction parts with
  | nil => rfl
  | cons m parts ih =>
    obtain ⟨hm, hparts⟩ := List.forall_mem_cons.1 h
    rw [List.flatMap_cons, List.count_append, ih hparts, occurrences, occurrences,
      List.countP_cons, List.Nodup.count hm, Nat.add_comm]
    simp only [decide_eq_true_eq]

lemma nodup_flatMap_names {parts : List Model} (h : ∀ m ∈ parts, m.names.Nodup) :
    (parts.flatMap names).Nodup ↔ ∀ n, occurrences parts n ≤ 1 := by
  rw [List.nodup_iff_count_le_one]
  simp only [count_flatMap_names h]

/-! ### What merging gives -/

/-- A model with the entities and the tables of others put at its end. -/
def joined (m : Model) (parts : List Model) : Model where
  entities := m.entities ++ parts.flatMap (·.entities)
  ancestors := m.ancestors.putAll (parts.flatMap (·.ancestors.entries))
  packageTypes := m.packageTypes.putAll (parts.flatMap (·.packageTypes.entries))

lemma names_joined (m : Model) (parts : List Model) :
    (m.joined parts).names = m.names ++ parts.flatMap names := by
  rw [names, joined, List.map_append, List.map_flatMap]
  rfl

lemma joined_nil (m : Model) : m.joined [] = m := by
  rw [joined, List.flatMap_nil, List.append_nil]
  rfl

lemma joined_cons (m part : Model) (parts : List Model) :
    m.joined (part :: parts) = (m.joined [part]).joined parts := by
  simp only [joined, List.flatMap_cons, List.flatMap_nil, List.append_nil, List.append_assoc,
    Table.putAll_append]

lemma absorb_ok {m part : Model} (h : (m.names ++ part.names).Nodup) :
    m.absorb part = .ok (m.joined [part]) := by
  rw [absorb, addAll_ok h, ok_bind, joined]
  simp only [List.flatMap_cons, List.flatMap_nil, List.append_nil]
  rfl

lemma absorb_error {m part : Model} (hm : m.names.Nodup) (h : ¬ (m.names ++ part.names).Nodup) :
    ∃ n, m.absorb part = .error (.duplicate n) ∧ 2 ≤ (m.names ++ part.names).count n := by
  obtain ⟨n, herror, hn⟩ := addAll_error hm h
  exact ⟨n, by rw [absorb, herror, error_bind], hn⟩

lemma foldlM_absorb_ok {m : Model} {parts : List Model}
    (h : (m.names ++ parts.flatMap names).Nodup) :
    parts.foldlM absorb m = .ok (m.joined parts) := by
  induction parts generalizing m with
  | nil =>
    rw [joined_nil]
    rfl
  | cons part parts ih =>
    rw [List.flatMap_cons, ← List.append_assoc] at h
    rw [List.foldlM_cons, absorb_ok (List.nodup_append.1 h).1, ok_bind, joined_cons m part parts]
    apply ih
    rwa [names_joined, List.flatMap_cons, List.flatMap_nil, List.append_nil]

lemma foldlM_absorb_error {m : Model} {parts : List Model} (hm : m.names.Nodup)
    (h : ¬ (m.names ++ parts.flatMap names).Nodup) :
    ∃ n, parts.foldlM absorb m = .error (.duplicate n) ∧
      2 ≤ (m.names ++ parts.flatMap names).count n := by
  induction parts generalizing m with
  | nil => exact absurd (by simpa using hm) h
  | cons part parts ih =>
    rw [List.flatMap_cons, ← List.append_assoc] at h ⊢
    by_cases hnodup : (m.names ++ part.names).Nodup
    · have hnames : (m.joined [part]).names = m.names ++ part.names := by simp [names_joined]
      obtain ⟨n, herror, hn⟩ := ih (hnames ▸ hnodup) (by rwa [hnames])
      rw [hnames] at hn
      exact ⟨n, by rw [List.foldlM_cons, absorb_ok hnodup, ok_bind, herror], hn⟩
    · obtain ⟨n, herror, hn⟩ := absorb_error hm hnodup
      refine ⟨n, by rw [List.foldlM_cons, herror, error_bind], ?_⟩
      rw [List.count_append]
      exact Nat.le_add_right_of_le hn

/-- Models without a common name can be merged. -/
lemma merge_ok {parts : List Model} (h : (parts.flatMap names).Nodup) :
    merge parts = .ok (joined {} parts) := foldlM_absorb_ok h

/-- Merging other models fails at a name that two of them have. -/
lemma merge_error {parts : List Model} (hparts : ∀ m ∈ parts, m.names.Nodup)
    (h : ¬ (parts.flatMap names).Nodup) :
    ∃ n, merge parts = .error (.duplicate n) ∧ 2 ≤ occurrences parts n := by
  obtain ⟨n, herror, hn⟩ := foldlM_absorb_error (m := {}) List.nodup_nil h
  refine ⟨n, herror, ?_⟩
  rw [← count_flatMap_names hparts]
  exact hn

lemma types_joined (parts : List Model) : (joined {} parts).types = parts.flatMap types := by
  rw [types, joined, List.nil_append, List.filterMap_flatMap]
  rfl

lemma nodup_names_joined {parts : List Model} (h : (parts.flatMap names).Nodup) :
    (joined {} parts).names.Nodup := by
  rwa [names_joined]

/-! ### The tables of merged models -/

/-- A type of a model declares a type of another model as a supertype. -/
def InheritsInto (m m' : Model) : Prop :=
  ∃ t ∈ m.types, ∃ p ∈ t.info.parents, ∃ t' ∈ m'.types, t'.qualifiedName = p

lemma Consistent.package_mem_names {m : Model} (h : m.Consistent) {t : TypeEntity}
    (ht : t ∈ m.types) : t.info.package ∈ m.names := by
  obtain ⟨p, hp, -, hname⟩ := h.packages t ht
  exact List.mem_map.2 ⟨p, hp, hname⟩

lemma nodup_keys_supertypes {m : Model} (h : m.names.Nodup) : m.supertypes.keys.Nodup := by
  rw [keys_supertypes h]
  exact typeNames_nodup h

section

variable {parts : List Model} (hparts : ∀ m ∈ parts, m.Consistent)
  (hdistinct : (parts.flatMap names).Nodup)

include hdistinct in
/-- A name is in one model only. -/
lemma eq_of_mem_names {a b : Model} (ha : a ∈ parts) (hb : b ∈ parts) {n : Text}
    (hna : n ∈ a.names) (hnb : n ∈ b.names) : a = b := by
  have : Std.Symm (Function.onFun List.Disjoint names) := ⟨fun _ _ hab => List.Disjoint.symm hab⟩
  by_contra hne
  exact (List.nodup_flatMap.1 hdistinct).2.forall ha hb hne hna hnb

include hparts hdistinct

/-- The types of a package are all in one model. -/
lemma mem_types_joined {m : Model} (hm : m ∈ parts) {t : TypeEntity}
    (hp : t.info.package ∈ m.names) : t ∈ (joined {} parts).types ↔ t ∈ m.types := by
  rw [types_joined, List.mem_flatMap]
  constructor
  · rintro ⟨other, hother, ht⟩
    have hp' := (hparts other hother).package_mem_names ht
    rwa [eq_of_mem_names hdistinct hm hother hp hp']
  · intro ht
    exact ⟨m, hm, ht⟩

/-- The merged index has for each package what an index made anew has. -/
lemma get?_packageTypes_joined (p : Text) :
    (joined {} parts).packageTypes.get? p = (joined {} parts).packageIndex.get? p := by
  have hnames := nodup_names_joined hdistinct
  have hfound {v : List Text} (hv : (joined {} parts).packageTypes.get? p = some v) :
      (joined {} parts).packageIndex.get? p = some v := by
    obtain ⟨m, hm, hv⟩ := List.mem_flatMap.1 (Table.mem_of_get?_ofEntries hv)
    rw [(hparts m hm).packageTypes, mem_entries_packageIndex (hparts m hm).distinct] at hv
    obtain ⟨hne, hasc, hall⟩ := hv
    obtain ⟨n, hn⟩ := List.exists_mem_of_ne_nil v hne
    obtain ⟨t, ht, -, rfl⟩ := (hall n).1 hn
    have hp := (hparts m hm).package_mem_names ht
    rw [get?_packageIndex_eq_some_iff hnames]
    refine ⟨hne, hasc, fun n => (hall n).trans (exists_congr fun t' => ?_)⟩
    constructor
    · rintro ⟨ht', hn, hpackage⟩
      exact ⟨(mem_types_joined hparts hdistinct hm (hpackage ▸ hp)).2 ht', hn, hpackage⟩
    · rintro ⟨ht', hn, hpackage⟩
      exact ⟨(mem_types_joined hparts hdistinct hm (hpackage ▸ hp)).1 ht', hn, hpackage⟩
  cases hget : (joined {} parts).packageTypes.get? p with
  | some v => exact (hfound hget).symm
  | none =>
    symm
    by_contra hne
    obtain ⟨v, hv⟩ := Option.ne_none_iff_exists'.1 hne
    obtain ⟨hne, -, hall⟩ := (get?_packageIndex_eq_some_iff hnames p v).1 hv
    obtain ⟨n, hn⟩ := List.exists_mem_of_ne_nil v hne
    obtain ⟨t, ht, -, rfl⟩ := (hall n).1 hn
    rw [types_joined] at ht
    obtain ⟨m, hm, ht⟩ := List.mem_flatMap.1 ht
    -- the index of the model that has the type has an entry for the package
    have hkey : t.info.package ∈ m.packageTypes.keys := by
      rw [(hparts m hm).packageTypes, ← Table.has_iff_mem_keys, Table.has, get?_packageIndex,
        if_neg (List.ne_nil_of_mem (mem_typeNamesIn.2 ⟨t, ht, rfl, rfl⟩))]
      rfl
    obtain ⟨e, he, hname⟩ := List.mem_map.1 hkey
    refine (Table.get?_eq_none_iff _ _).1 hget ?_
    rw [joined, Table.mem_keys_putAll]
    exact .inr (List.mem_map.2 ⟨e, List.mem_flatMap.2 ⟨m, hm, he⟩, hname⟩)

omit hparts in
lemma supertypes_joined : (joined {} parts).supertypes.entries =
    parts.flatMap (·.supertypes.entries) := by
  have hentries {m : Model} (h : m.names.Nodup) :
      m.supertypes.entries = m.types.map fun t => (t.qualifiedName, t.info.parents) := by
    rw [supertypes, Table.ofEntries_of_nodup]
    rw [List.map_map]
    exact typeNames_nodup h
  rw [hentries (nodup_names_joined hdistinct), types_joined, List.map_flatMap]
  refine List.flatMap_congr fun m hm => (hentries ?_).symm
  exact (List.nodup_flatMap.1 hdistinct).1 m hm

variable (hapart : parts.Pairwise fun a b => ¬ a.InheritsInto b ∧ ¬ b.InheritsInto a)

include hapart

/-- If no model inherits from another one, a type has the ancestors that it has in its model. -/
lemma ancestorsOf_joined {m : Model} (hm : m ∈ parts) {n : Text} (hn : n ∈ m.supertypes.keys) :
    (joined {} parts).supertypes.ancestorsOf n = m.supertypes.ancestorsOf n := by
  have : Std.Symm fun a b : Model => ¬ a.InheritsInto b ∧ ¬ b.InheritsInto a :=
    ⟨fun _ _ h => h.symm⟩
  have hnames := nodup_names_joined hdistinct
  have hmnames := (hparts m hm).distinct
  have hkeys := nodup_keys_supertypes hnames
  have hmkeys := nodup_keys_supertypes hmnames
  apply Supertypes.ancestorsOf_part hkeys hmkeys _ _ hn
  · intro n hn
    obtain ⟨v, hv⟩ := Table.exists_of_mem_keys hn
    rw [hv, Table.get?_eq_some_iff hkeys, supertypes_joined hdistinct]
    exact List.mem_flatMap.2 ⟨m, hm, Table.mem_entries_of_get? hv⟩
  · intro n hn p hp hkey
    rw [keys_supertypes hnames, types_joined, List.map_flatMap] at hkey
    obtain ⟨other, hother, hkey⟩ := List.mem_flatMap.1 hkey
    obtain ⟨t', ht', rfl⟩ := List.mem_map.1 hkey
    obtain ⟨t, ht, rfl, hparent⟩ := mem_parents_supertypes hp
    have hsame : m = other := by
      by_contra hne
      exact (hapart.forall hm hother hne).1 ⟨t, ht, _, hparent, t', ht', rfl⟩
    rw [keys_supertypes hmnames, hsame]
    exact List.mem_map_of_mem ht'

/-- If no model inherits from another one, the merged ancestors are those computed anew. -/
lemma ancestors_joined : (joined {} parts).ancestors = (joined {} parts).supertypes.ancestors := by
  have hnames := nodup_names_joined hdistinct
  have hentries : parts.flatMap (·.ancestors.entries) =
      (joined {} parts).supertypes.ancestors.entries := by
    rw [Supertypes.ancestors, Table.keys, supertypes_joined hdistinct, List.map_flatMap,
      List.map_flatMap]
    apply List.flatMap_congr
    intro m hm
    rw [(hparts m hm).ancestors, Supertypes.ancestors, Table.keys]
    apply List.map_congr_left
    intro n hn
    rw [ancestorsOf_joined hparts hdistinct hapart hm hn]
  have hkeys : ((joined {} parts).supertypes.ancestors.entries.map (·.1)).Nodup := by
    rw [← Table.keys, keys_ancestors]
    exact nodup_keys_supertypes hnames
  change Table.ofEntries (parts.flatMap (·.ancestors.entries)) = _
  rw [hentries, Table.ofEntries_of_nodup hkeys]

end

end Model

/-- Merging extracted models fails exactly if a name is in two of them, and then blames such a name.
Otherwise the merged model has the entities of all in order and lists for each package its types in
ascending order; and if no model inherits from another one, it has the ancestors that would be
computed from all its types. -/
theorem merge_extracted {parts : List Model}
    (h : ∀ m ∈ parts, ∃ n limit ds x, extract n limit ds = .ok x ∧ x.model = m) :
    ((∃ n, Model.merge parts = .error (.duplicate n)) ↔ ∃ n, 2 ≤ Model.occurrences parts n) ∧
    (∀ n, Model.merge parts = .error (.duplicate n) → 2 ≤ Model.occurrences parts n) ∧
    ((∀ n, Model.occurrences parts n ≤ 1) → ∃ m, Model.merge parts = .ok m ∧
      m.entities = parts.flatMap (·.entities) ∧
      (∀ p, (m.typesInPackage p).Pairwise (·.qualifiedName < ·.qualifiedName) ∧
        ∀ t, t ∈ m.typesInPackage p ↔ t ∈ m.types ∧ t.info.package = p) ∧
      (parts.Pairwise (fun a b => ¬ a.InheritsInto b ∧ ¬ b.InheritsInto a) →
        m.ancestors = m.supertypes.ancestors)) := by
  have hparts : ∀ m ∈ parts, m.Consistent := by
    intro m hm
    obtain ⟨n, limit, ds, x, hx, rfl⟩ := h m hm
    exact consistent_of_extract hx
  have hnames : ∀ m ∈ parts, m.names.Nodup := fun m hm => (hparts m hm).distinct
  have hiff := Model.nodup_flatMap_names hnames
  by_cases hdistinct : (parts.flatMap Model.names).Nodup
  · have hok := Model.merge_ok hdistinct
    have hfew := hiff.1 hdistinct
    have hjoined := Model.nodup_names_joined hdistinct
    have hnamed : ∀ t ∈ (Model.joined {} parts).types, t.qualifiedName ≠ [] := by
      intro t ht
      rw [Model.types_joined] at ht
      obtain ⟨m, hm, ht⟩ := List.mem_flatMap.1 ht
      exact (hparts m hm).named t ht
    have hindex := Model.get?_packageTypes_joined hparts hdistinct
    have hfails (n : Text) : Model.merge parts ≠ .error (.duplicate n) := by
      rw [hok]
      exact nofun
    refine ⟨iff_of_false ?_ ?_, fun n hn => absurd hn (hfails n), fun _ => ⟨_, hok, ?_, ?_, ?_⟩⟩
    · rintro ⟨n, hn⟩
      exact hfails n hn
    · rintro ⟨n, hn⟩
      exact Nat.not_succ_le_self 1 (Nat.le_trans hn (hfew n))
    · exact List.nil_append _
    · intro p
      refine ⟨Model.typesInPackage_ascending fun names hget => ?_, fun t =>
        Model.mem_typesInPackage_iff hjoined hnamed (hindex p)⟩
      rw [hindex] at hget
      exact ((Model.get?_packageIndex_eq_some_iff hjoined p names).1 hget).2.1
    · exact Model.ancestors_joined hparts hdistinct
  · obtain ⟨n, herror, hn⟩ := Model.merge_error hnames hdistinct
    refine ⟨iff_of_true ⟨n, herror⟩ ⟨n, hn⟩, ?_, fun hfew => absurd (hiff.2 hfew) hdistinct⟩
    intro n' hn'
    rw [herror] at hn'
    cases hn'
    exact hn

theorem merge_extracted_shapesAndLayers :
    ∃ x y m, extract 0 .declaring shapes = .ok x ∧ extract 1 .declaring layers = .ok y ∧
      Model.merge [x.model, y.model] = .ok m ∧
      m.entities = x.model.entities ++ y.model.entities ∧
      (∀ t, t ∈ m.typesInPackage "p" ↔ t ∈ m.types ∧ t.info.package = "p") ∧
      m.ancestors = m.supertypes.ancestors ∧
      ∃ n, Model.merge [x.model, y.model, x.model] = .error (.duplicate n) := by
  obtain ⟨x, y, hx, hy, hfew, htwice, hapart⟩ : ∃ x y, extract 0 .declaring shapes = .ok x ∧
      extract 1 .declaring layers = .ok y ∧ (x.model.names ++ y.model.names).Nodup ∧
      2 ≤ Model.occurrences [x.model, y.model, x.model] "shapes" ∧
      (∀ a ∈ x.model.types, ∀ b ∈ y.model.types,
        b.qualifiedName ∉ a.info.parents ∧ a.qualifiedName ∉ b.info.parents) :=
    ⟨_, _, rfl, rfl, by decide, by decide, by decide⟩
  have hpair : ∀ m ∈ [x.model, y.model],
      ∃ n limit ds x, extract n limit ds = .ok x ∧ x.model = m := by
    intro m hm
    rcases List.mem_pair.1 hm with rfl | rfl
    · exact ⟨_, _, _, x, hx, rfl⟩
    · exact ⟨_, _, _, y, hy, rfl⟩
  have htriple : ∀ m ∈ [x.model, y.model, x.model],
      ∃ n limit ds x, extract n limit ds = .ok x ∧ x.model = m := by
    intro m hm
    rcases List.mem_cons.1 hm with rfl | hm
    · exact ⟨_, _, _, x, hx, rfl⟩
    · exact hpair m (List.mem_pair.2 (List.mem_pair.1 hm).symm)
  have hnames : ∀ m ∈ [x.model, y.model], m.names.Nodup := by
    intro m hm
    obtain ⟨n, limit, ds, x, hx, rfl⟩ := hpair m hm
    exact (consistent_of_extract hx).distinct
  obtain ⟨m, hm, hentities, htypes, hancestors⟩ := (merge_extracted hpair).2.2
    ((Model.nodup_flatMap_names hnames).1 (by simpa using hfew))
  refine ⟨x, y, m, hx, hy, hm, by simpa using hentities, (htypes "p").2, hancestors ?_,
    (merge_extracted htriple).1.2 ⟨_, htwice⟩⟩
  rw [List.pairwise_pair]
  constructor
  · rintro ⟨a, ha, p, hp, b, hb, rfl⟩
    exact (hapart a ha b hb).1 hp
  · rintro ⟨b, hb, p, hp, a, ha, rfl⟩
    exact (hapart a ha b hb).2 hp

end ApiDocs
