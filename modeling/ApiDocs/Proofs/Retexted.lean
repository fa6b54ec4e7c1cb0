import ApiDocs.Proofs.Documented
import ApiDocs.Proofs.Inheritance

/-!
# Models with other texts

The comment of a declaration is only read for the texts of its entity. A change of entities that
touches their texts alone commutes with all look-ups, and leaves the supertypes and the index of
packages as they are. So a member gets the same documentation from the members that it overrides,
whatever its own comment is.
-/

namespace ApiDocs

/-! ### Entities -/

/-- An entity without its summary, its body and the links in them. -/
def Entity.untexted (e : Entity) : Entity := { e with summary := [], body := [], links := [] }

/-- A change of entities touches only their texts. -/
def TextsOnly (f : Entity → Entity) : Prop := ∀ e, (f e).untexted = e.untexted

namespace TextsOnly

variable {f : Entity → Entity} (hf : TextsOnly f)

include hf

/-- What does not read the texts is the same for a changed entity. -/
lemma eq {β : Type} (g : Entity → β) (hg : ∀ e, g e.untexted = g e) (e : Entity) :
    g (f e) = g e := by
  rw [← hg, hf, hg]

lemma qualifiedName (e : Entity) : (f e).qualifiedName = e.qualifiedName :=
  hf.eq (·.qualifiedName) (fun _ => rfl) e

lemma category (e : Entity) : (f e).category = e.category := hf.eq (·.category) (fun _ => rfl) e

lemma sameSignature (e o : Entity) : Model.sameSignature e (f o) = Model.sameSignature e o :=
  hf.eq (Model.sameSignature e) (fun _ => rfl) o

lemma asType? (e : Entity) : (f e).asType? = e.asType?.map fun t => ⟨f t.entity, t.info⟩ := by
  rw [Entity.asType?, Entity.asType?, Entity.typeInfo?, Entity.typeInfo?, hf.category]
  cases e.category <;> rfl

end TextsOnly

/-! ### Look-ups -/

namespace Model

/-- The model with each entity changed. -/
def mapEntities (m : Model) (f : Entity → Entity) : Model :=
  { m with entities := m.entities.map f }

variable {m : Model} {f : Entity → Entity}

lemma mergeDepth_mapEntities : (m.mapEntities f).mergeDepth = m.mergeDepth := by
  rw [mergeDepth, mergeDepth, mapEntities, List.length_map]

section

variable (hf : TextsOnly f)

include hf

lemma find?_mapEntities (n : Text) : (m.mapEntities f).find? n = (m.find? n).map f := by
  have hname : (fun e : Entity => decide (e.qualifiedName = n)) ∘ f =
      fun e => decide (e.qualifiedName = n) := by
    funext e
    rw [Function.comp_apply, hf.qualifiedName]
  rw [find?, find?, mapEntities, List.find?_map, hname]

lemma findType?_mapEntities (n : Text) : (m.mapEntities f).findType? n =
    (m.findType? n).map fun t => ⟨f t.entity, t.info⟩ := by
  rw [findType?, findType?, find?_mapEntities hf]
  split
  · rfl
  · cases m.find? n with
    | none => rfl
    | some e => exact hf.asType? e

lemma membersOf_mapEntities (type : Text) :
    (m.mapEntities f).membersOf type = (m.membersOf type).map f := by
  rw [membersOf, membersOf, findType?_mapEntities hf]
  cases m.findType? type with
  | none => rfl
  | some t =>
    rw [List.map_filterMap]
    apply List.filterMap_congr
    intro n _
    exact find?_mapEntities hf n

lemma types_mapEntities :
    (m.mapEntities f).types = m.types.map fun t => ⟨f t.entity, t.info⟩ := by
  rw [types, types, mapEntities, List.filterMap_map, List.map_filterMap]
  apply List.filterMap_congr
  intro e _
  exact hf.asType? e

lemma supertypes_mapEntities : (m.mapEntities f).supertypes = m.supertypes := by
  rw [supertypes, supertypes, types_mapEntities hf, List.map_map]
  congr 1
  apply List.map_congr_left
  intro t _
  exact congrArg (·, t.info.parents) (hf.qualifiedName t.entity)

lemma packageIndex_mapEntities : (m.mapEntities f).packageIndex = m.packageIndex := by
  rw [packageIndex, packageIndex, types_mapEntities hf, List.foldl_map]
  simp only [TypeEntity.qualifiedName, hf.qualifiedName]

lemma inherits_mapEntities {n p : Text} : (m.mapEntities f).Inherits n p ↔ m.Inherits n p := by
  simp only [Inherits, types_mapEntities hf, List.mem_map, exists_exists_and_eq_and,
    TypeEntity.qualifiedName, hf.qualifiedName]

lemma acyclic_mapEntities (ha : m.Acyclic) : (m.mapEntities f).Acyclic := by
  intro n hn
  exact ha n (Relation.TransGen.mono (fun _ _ => (inherits_mapEntities hf).1) _ _ hn)

/-- What an entity overrides is changed like all entities. -/
lemma overridden_mapEntities (e : Entity) :
    (m.mapEntities f).overridden e = (m.overridden e).map f := by
  have hfind (a : Text) : ((m.mapEntities f).membersOf a).find? (sameSignature e) =
      ((m.membersOf a).find? (sameSignature e)).map f := by
    have hsame : sameSignature e ∘ f = sameSignature e := funext fun o => hf.sameSignature e o
    rw [membersOf_mapEntities hf, List.find?_map, hsame]
  rw [overridden, overridden, findType?_mapEntities hf]
  split
  · cases m.findType? e.scope with
    | none => rfl
    | some t =>
      simp only [Option.map_some, TypeEntity.qualifiedName, hf.qualifiedName, hfind,
        List.map_filterMap]
      rfl
  · rfl

lemma indexed_mapEntities : (m.mapEntities f).indexAncestors.indexPackages =
    m.indexAncestors.indexPackages.mapEntities f := by
  have hancestors : (m.mapEntities f).indexAncestors = m.indexAncestors.mapEntities f := by
    rw [indexAncestors, supertypes_mapEntities hf]
    rfl
  rw [hancestors, indexPackages, packageIndex_mapEntities hf]
  rfl

/-! ### Documentation -/

section

variable (h : m.Consistent) (ha : m.Acyclic)

include h ha

/-- Entities that are not changed, and override none that are, keep their documentation. -/
lemma docAt_mapEntities {bound : Nat}
    (hfix : ∀ o ∈ m.entities, m.height o.scope < bound → f o = o) {e : Entity}
    (he : e ∈ m.entities) (hlow : m.height e.scope < bound) (levels : Nat) :
    (m.mapEntities f).docAt levels e = m.docAt levels e := by
  induction levels generalizing e with
  | zero => rfl
  | succ levels ih =>
    rw [docAt, docAt, overridden_mapEntities hf, List.map_map]
    congr 1
    apply List.map_congr_left
    intro o ho
    have hmem := mem_entities_of_mem_overridden ho
    have hlower := Nat.lt_trans (height_lt_of_mem_overridden h ha ho) hlow
    rw [Function.comp_apply, hfix o hmem hlower, ih hmem hlower]

/-- Where only an entity and higher ones are changed, the documentation of the entity is merged with
that of the members it overrides as before. -/
lemma fullDoc_mapEntities (h' : (m.mapEntities f).Consistent) {e : Entity}
    (hfix : ∀ o ∈ m.entities, m.height o.scope < m.height e.scope → f o = o) :
    (m.mapEntities f).fullDoc (f e) =
      mergeDoc (f e) ((m.overridden e).map fun o => (o, m.fullDoc o)) := by
  have hoverridden : (m.mapEntities f).overridden (f e) = (m.overridden e).map f := by
    rw [← overridden_mapEntities hf]
    exact hf.eq (m.mapEntities f).overridden (fun _ => rfl) e
  rw [fullDoc_eq h' (acyclic_mapEntities hf ha), hoverridden, List.map_map]
  congr 1
  apply List.map_congr_left
  intro o ho
  have hmem := mem_entities_of_mem_overridden ho
  have hlower := height_lt_of_mem_overridden h ha ho
  rw [Function.comp_apply, hfix o hmem hlower, fullDoc, mergeDepth_mapEntities,
    docAt_mapEntities hf h ha hfix hmem hlower]
  rfl

end

end

end Model

end ApiDocs
