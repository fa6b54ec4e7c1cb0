import ApiDocs.Proofs.Model

/-!
# Consistent models

In a consistent model names are distinct, types lie in packages and members in types of the model,
and the lists and tables that say so once more agree with that. Look-ups in such a model find what
they are meant to find.
-/

namespace ApiDocs

namespace Model

/-- The members whose scope is a name, in order. -/
def membersIn (m : Model) (scope : Text) : List Entity :=
  m.entities.filter fun e => e.kind.isMember && e.scope = scope

/-- What a model says of packages, types and members in several places agrees. -/
structure Consistent (m : Model) : Prop where
  distinct : m.names.Nodup
  named : ∀ t ∈ m.types, t.qualifiedName ≠ []
  /-- The package of a type is in the model. -/
  packages : ∀ t ∈ m.types, ∃ p ∈ m.entities, p.kind = .package ∧ p.qualifiedName = t.info.package
  /-- The type of a member is in the model. -/
  scopes : ∀ e ∈ m.entities, e.kind.isMember → ∃ t ∈ m.types, t.qualifiedName = e.scope
  /-- A type lists the members that say that it is their scope. -/
  members : ∀ t ∈ m.types, t.info.members = (m.membersIn t.qualifiedName).map (·.qualifiedName)
  /-- The members of a type are numbered in their order. -/
  numbered : ∀ n, (m.membersIn n).Pairwise (·.index < ·.index)
  parameters : ∀ e ∈ m.entities, e.parameterNames.length = e.parameterTypes.length
  /-- A reference says by which entity it was written. -/
  owned : ∀ e ∈ m.entities, ∀ r ∈ e.references, r.site.owner = e.qualifiedName
  packageTypes : m.packageTypes = m.packageIndex
  ancestors : m.ancestors = m.supertypes.ancestors

namespace Consistent

variable {m : Model} (h : m.Consistent)

include h

lemma findType?_eq_some_iff {n : Text} {t : TypeEntity} :
    m.findType? n = some t ↔ t ∈ m.types ∧ t.qualifiedName = n :=
  Model.findType?_eq_some_iff h.distinct h.named

lemma findType?_of_mem {t : TypeEntity} (ht : t ∈ m.types) :
    m.findType? t.qualifiedName = some t :=
  h.findType?_eq_some_iff.2 ⟨ht, rfl⟩

/-- Looking up names of entities gives the entities. -/
lemma filterMap_find? {es : List Entity} (hes : ∀ e ∈ es, e ∈ m.entities) :
    (es.map (·.qualifiedName)).filterMap m.find? = es := by
  rw [List.filterMap_map]
  refine (List.filterMap_congr fun e he => ?_).trans List.filterMap_some
  exact find?_of_mem h.distinct (hes e he)

/-- The members that a type lists are those that say that it is their scope. -/
lemma membersOf_eq {t : TypeEntity} (ht : t ∈ m.types) :
    m.membersOf t.qualifiedName = m.membersIn t.qualifiedName := by
  rw [membersOf, h.findType?_of_mem ht]
  change t.info.members.filterMap m.find? = _
  rw [h.members t ht]
  exact h.filterMap_find? fun e he => (List.mem_filter.1 he).1

/-- Looking up names of types gives types of these names. -/
lemma map_filterMap_findType? {names : List Text}
    (hnames : ∀ n ∈ names, ∃ t ∈ m.types, t.qualifiedName = n) :
    (names.filterMap m.findType?).map (·.qualifiedName) = names := by
  induction names with
  | nil => rfl
  | cons n names ih =>
    obtain ⟨t, ht, rfl⟩ := hnames n (List.mem_cons_self ..)
    rw [List.filterMap_cons, h.findType?_of_mem ht, List.map_cons,
      ih fun n hn => hnames n (List.mem_cons_of_mem _ hn)]

/-- The types of a package are listed in ascending order. -/
lemma names_typesInPackage (p : Text) :
    (m.typesInPackage p).map (·.qualifiedName) = sortNames (m.typeNamesIn p) := by
  rw [typesInPackage, h.packageTypes, get?_packageIndex]
  split
  · rename_i hnone
    rw [hnone]
    rfl
  · refine h.map_filterMap_findType? fun n hn => ?_
    obtain ⟨t, ht, -, hname⟩ := mem_typeNamesIn.1 (mem_sortNames.1 hn)
    exact ⟨t, ht, hname⟩

lemma typesInPackage_ascending (p : Text) :
    (m.typesInPackage p).Pairwise (·.qualifiedName < ·.qualifiedName) := by
  rw [← List.pairwise_map, h.names_typesInPackage]
  exact sortNames_strict (typeNamesIn_nodup h.distinct p)

lemma mem_typesInPackage_iff {p : Text} {t : TypeEntity} :
    t ∈ m.typesInPackage p ↔ t ∈ m.types ∧ t.info.package = p :=
  Model.mem_typesInPackage_iff h.distinct h.named (by rw [h.packageTypes])

end Consistent

end Model

end ApiDocs
