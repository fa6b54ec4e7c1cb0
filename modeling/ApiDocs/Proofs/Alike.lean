import ApiDocs.Proofs.Emission
import ApiDocs.Proofs.Inheritance

/-!
# Alike models

Two models are alike if they hold the same entities in any order, where packages and types may have
other places in their scopes, but the members of every type come in one order. Looking up in alike
models gives the same up to these places, and the tables computed from them say the same.
-/

namespace ApiDocs

/-- An entity without its place in its scope. -/
def Entity.unnumbered (e : Entity) : Entity := { e with index := 0 }

/-- A type without its place in its scope. -/
def TypeEntity.unnumbered (t : TypeEntity) : TypeEntity := ⟨t.entity.unnumbered, t.info⟩

@[simp] lemma Entity.category_unnumbered (e : Entity) : e.unnumbered.category = e.category := rfl

@[simp] lemma TypeEntity.qualifiedName_unnumbered (t : TypeEntity) :
    t.unnumbered.qualifiedName = t.qualifiedName := rfl

@[simp] lemma TypeEntity.info_unnumbered (t : TypeEntity) : t.unnumbered.info = t.info := rfl

lemma Entity.asType?_unnumbered (e : Entity) :
    e.unnumbered.asType? = e.asType?.map TypeEntity.unnumbered := by
  rcases e with ⟨_, _ | _ | _⟩ <;> rfl

/-- What does not read the place is the same for entities that differ in their places only. -/
lemma Entity.eq_of_unnumbered_eq {β : Type} (f : Entity → β) (hf : ∀ e, f e.unnumbered = f e)
    {e e' : Entity} (h : e.unnumbered = e'.unnumbered) : f e = f e' := by
  rw [← hf e, h, hf]

lemma TypeEntity.eq_of_unnumbered_eq {β : Type} (f : TypeEntity → β)
    (hf : ∀ t, f t.unnumbered = f t) {t t' : TypeEntity} (h : t.unnumbered = t'.unnumbered) :
    f t = f t' := by
  rw [← hf t, h, hf]

/-- Two options that a function makes equal are both empty or both full. -/
lemma map_eq_map_cases {α β : Type} {f : α → β} {o o' : Option α} (h : o.map f = o'.map f) :
    (o = none ∧ o' = none) ∨ ∃ a a', o = some a ∧ o' = some a' ∧ f a = f a' := by
  cases o with
  | none =>
    cases o' with
    | none => exact .inl ⟨rfl, rfl⟩
    | some a' => cases h
  | some a =>
    cases o' with
    | none => cases h
    | some a' => exact .inr ⟨a, a', rfl, rfl, Option.some_inj.1 h⟩

namespace Model

/-- The entities are the same up to their order and their places, and members keep both. -/
structure Alike (m m' : Model) : Prop where
  entities : (m.entities.map Entity.unnumbered).Perm (m'.entities.map Entity.unnumbered)
  membersIn : ∀ n, m.membersIn n = m'.membersIn n

variable {m m' : Model}

lemma Alike.symm (h : m.Alike m') : m'.Alike m := ⟨h.entities.symm, fun n => (h.membersIn n).symm⟩

lemma map_unnumbered_types (m : Model) :
    m.types.map TypeEntity.unnumbered =
      (m.entities.map Entity.unnumbered).filterMap Entity.asType? := by
  rw [types, List.map_filterMap, List.filterMap_map]
  apply List.filterMap_congr
  intro e _
  exact (Entity.asType?_unnumbered e).symm

lemma map_findType? (m : Model) (n : Text) : (m.findType? n).map TypeEntity.unnumbered =
    if n = [] then none else ((m.find? n).map Entity.unnumbered).bind Entity.asType? := by
  rw [findType?]
  split
  · rfl
  · cases m.find? n with
    | none => rfl
    | some e => exact (Entity.asType?_unnumbered e).symm

namespace Alike

section

variable (h : m.Alike m')

include h

lemma types : (m.types.map TypeEntity.unnumbered).Perm (m'.types.map TypeEntity.unnumbered) := by
  rw [map_unnumbered_types, map_unnumbered_types]
  exact h.entities.filterMap _

/-- What is made from types without their places is the same up to the order. -/
lemma map_types {α : Type} {f : TypeEntity → α} (hf : ∀ t, f t.unnumbered = f t) :
    (m.types.map f).Perm (m'.types.map f) := by
  have hmap := h.types.map f
  simpa only [List.map_map, Function.comp_def, hf] using hmap

lemma length_entities : m.entities.length = m'.entities.length := by
  simpa using h.entities.length_eq

lemma packageNames : m.packageNames = m'.packageNames := by
  have hfilter {m : Model} : (m.ofKind .package).map (·.qualifiedName) =
      ((m.entities.map Entity.unnumbered).filter (·.kind = .package)).map (·.qualifiedName) := by
    rw [List.filter_map, List.map_map]
    rfl
  rw [Model.packageNames, Model.packageNames, hfilter, hfilter]
  exact sortNames_congr ((h.entities.filter _).map _)

lemma typeNamesIn (p : Text) : (m.typeNamesIn p).Perm (m'.typeNamesIn p) := by
  have hfilter {m : Model} : m.typeNamesIn p =
      ((m.types.map TypeEntity.unnumbered).filter (·.info.package = p)).map (·.qualifiedName) := by
    rw [List.filter_map, List.map_map]
    rfl
  rw [hfilter, hfilter]
  exact (h.types.filter _).map _

end

section

variable (h : m.Alike m') (hm : m.Consistent) (hm' : m'.Consistent)

include h hm hm'

/-- Looking a name up finds the same entity up to its place. -/
lemma find? (n : Text) :
    (m.find? n).map Entity.unnumbered = (m'.find? n).map Entity.unnumbered := by
  have hiff {m : Model} (hm : m.Consistent) (u : Entity) :
      (m.find? n).map Entity.unnumbered = some u ↔
        u ∈ m.entities.map Entity.unnumbered ∧ u.qualifiedName = n := by
    simp only [Option.map_eq_some_iff, find?_eq_some_iff hm.distinct, List.mem_map]
    constructor
    · rintro ⟨e, ⟨he, hname⟩, rfl⟩
      exact ⟨⟨e, he, rfl⟩, hname⟩
    · rintro ⟨⟨e, he, rfl⟩, hname⟩
      exact ⟨e, ⟨he, hname⟩, rfl⟩
  ext1 u
  rw [hiff hm, hiff hm', h.entities.mem_iff]

lemma findType? (n : Text) :
    (m.findType? n).map TypeEntity.unnumbered = (m'.findType? n).map TypeEntity.unnumbered := by
  rw [map_findType?, map_findType?, h.find? hm hm']

lemma membersOf (type : Text) : m.membersOf type = m'.membersOf type := by
  rw [Model.membersOf, Model.membersOf]
  rcases map_eq_map_cases (h.findType? hm hm' type) with ⟨ht, ht'⟩ | ⟨t, t', ht, ht', -⟩
  · rw [ht, ht']
  · rw [← Model.membersOf, ← Model.membersOf]
    obtain ⟨hmem, rfl⟩ := hm.findType?_eq_some_iff.1 ht
    obtain ⟨hmem', hname⟩ := hm'.findType?_eq_some_iff.1 ht'
    rw [hm.membersOf_eq hmem, h.membersIn, ← hname, hm'.membersOf_eq hmem']

/-! ### The tables of alike models -/

lemma packageTypes (p : Text) : m.packageTypes.get? p = m'.packageTypes.get? p := by
  have hperm := h.typeNamesIn p
  have hnil : m.typeNamesIn p = [] ↔ m'.typeNamesIn p = [] :=
    ⟨fun hp => (hp ▸ hperm).nil_eq.symm, fun hp => (hp ▸ hperm).eq_nil⟩
  rw [hm.packageTypes, hm'.packageTypes, get?_packageIndex, get?_packageIndex,
    sortNames_congr hperm]
  simp only [hnil]

lemma supertypes (n : Text) : m.supertypes.get? n = m'.supertypes.get? n := by
  have hiff {m : Model} (hm : m.Consistent) (ps : List Text) : m.supertypes.get? n = some ps ↔
      (n, ps) ∈ m.types.map fun t => (t.qualifiedName, t.info.parents) := by
    apply Table.get?_ofEntries
    rw [List.map_map]
    exact typeNames_nodup hm.distinct
  have hperm : (m.types.map fun t => (t.qualifiedName, t.info.parents)).Perm
      (m'.types.map fun t => (t.qualifiedName, t.info.parents)) := h.map_types fun _ => rfl
  ext1 ps
  rw [hiff hm, hiff hm', hperm.mem_iff]

lemma edgeCount : m.supertypes.edgeCount = m'.supertypes.edgeCount := by
  have hsum {m : Model} (hm : m.Consistent) : m.supertypes.edgeCount =
      (m.types.map fun t => t.info.parents.length).sum := by
    rw [Model.supertypes, Table.ofEntries_of_nodup]
    · rw [Supertypes.edgeCount, List.foldr_map, List.sum_eq_foldr, List.foldr_map]
    · rw [List.map_map]
      exact typeNames_nodup hm.distinct
  have hperm : (m.types.map fun t => t.info.parents.length).Perm
      (m'.types.map fun t => t.info.parents.length) := h.map_types fun _ => rfl
  rw [hsum hm, hsum hm', hperm.sum_nat]

lemma ancestorsOf (n : Text) : m.ancestorsOf n = m'.ancestorsOf n := by
  have hsupertypes := h.supertypes hm hm'
  have hmem : n ∈ m.supertypes.keys ↔ n ∈ m'.supertypes.keys := by
    rw [← Table.has_iff_mem_keys, ← Table.has_iff_mem_keys, Table.has, Table.has, hsupertypes]
  rw [Model.ancestorsOf, Model.ancestorsOf, hm.ancestors, hm'.ancestors, get?_ancestors,
    get?_ancestors, Supertypes.ancestorsOf_congr hsupertypes (h.edgeCount hm hm')]
  simp only [hmem]

lemma overridden (e : Entity) : m.overridden e = m'.overridden e := by
  have hmembers : m.membersOf = m'.membersOf := funext fun n => h.membersOf hm hm' n
  rw [Model.overridden, Model.overridden, hmembers]
  rcases map_eq_map_cases (h.findType? hm hm' e.scope) with ⟨ht, ht'⟩ | ⟨t, t', ht, ht', heq⟩
  · rw [ht, ht']
  · have hname : t.qualifiedName = t'.qualifiedName :=
      TypeEntity.eq_of_unnumbered_eq (·.qualifiedName) (fun _ => rfl) heq
    rw [ht, ht']
    simp only [hname, h.ancestorsOf hm hm']

/-! ### The documentation in alike models -/

lemma docAt (levels : Nat) (e : Entity) : m.docAt levels e = m'.docAt levels e := by
  induction levels generalizing e with
  | zero => rfl
  | succ levels ih =>
    rw [Model.docAt, Model.docAt, h.overridden hm hm']
    simp only [ih]

lemma fullDoc (e : Entity) : m.fullDoc e = m'.fullDoc e := by
  rw [Model.fullDoc, Model.fullDoc, h.docAt hm hm', mergeDepth, mergeDepth, h.length_entities]

end

end Alike

end Model

end ApiDocs
