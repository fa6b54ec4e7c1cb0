import ApiDocs.Page.Target
import ApiDocs.Proofs.Alike

/-!
# Views of alike models

The view of a model lists names in an order of their own, and keeps the documentation by name. So
alike models have the same views, up to the order in which the tables were filled, and in both of
them every entity has the same target.
-/

namespace ApiDocs

/-- Views that list the same names and the same documentation. -/
structure View.Alike (v v' : View) : Prop where
  packages : v.packages = v'.packages
  typesOf : ∀ p, v.typesOf p = v'.typesOf p
  membersOf : ∀ t, v.membersOf t = v'.membersOf t
  doc : ∀ n, v.doc n = v'.doc n

namespace Model

variable {m m' : Model}

/-! ### The documentation to show -/

def shownDoc (m : Model) (inherits : Bool) (e : Entity) : MergedDoc :=
  if inherits then m.fullDoc e else .own e

lemma docAt_unnumbered (m : Model) (levels : Nat) (e : Entity) :
    m.docAt levels e.unnumbered = m.docAt levels e := by
  have hoverridden : m.overridden e.unnumbered = m.overridden e := rfl
  have hmerge (os : List Overridden) : mergeDoc e.unnumbered os = mergeDoc e os := rfl
  cases levels with
  | zero => rfl
  | succ levels => rw [docAt, docAt, hoverridden, hmerge]

lemma shownDoc_unnumbered (m : Model) (inherits : Bool) (e : Entity) :
    m.shownDoc inherits e.unnumbered = m.shownDoc inherits e := by
  cases inherits with
  | false => rfl
  | true => exact docAt_unnumbered m m.mergeDepth e

lemma docs_eq (h : m.Consistent) (ha : m.Acyclic) (inherits : Bool) :
    m.docs inherits = m.entities.map fun e => (e.qualifiedName, m.shownDoc inherits e) := by
  cases inherits with
  | false => rfl
  | true => exact mergedDocs_eq h ha

lemma doc_viewOf (h : m.Consistent) (ha : m.Acyclic) (inherits : Bool) (n : Text) :
    (m.viewOf inherits).doc n = ((m.find? n).map (m.shownDoc inherits)).getD {} := by
  have hget : (Table.ofEntries (m.docs inherits)).get? n =
      (m.find? n).map (m.shownDoc inherits) := by
    ext1 d
    rw [docs_eq h ha, Table.get?_ofEntries, List.mem_map, Option.map_eq_some_iff]
    · simp only [find?_eq_some_iff h.distinct, Prod.mk.injEq, and_assoc]
    · rw [List.map_map]
      exact h.distinct
  exact congrArg (Option.getD · {}) hget

/-- With inherited documentation, a view shows for an entity what it has merged over all levels. -/
lemma doc_viewOf_of_mem (h : m.Consistent) (ha : m.Acyclic) {e : Entity} (he : e ∈ m.entities) :
    (m.viewOf true).doc e.qualifiedName = m.fullDoc e := by
  rw [doc_viewOf h ha, find?_of_mem h.distinct he]
  rfl

namespace Alike

section

variable (h : m.Alike m')

include h

lemma inherits {n p : Text} (hp : m.Inherits n p) : m'.Inherits n p := by
  have hmem {t : TypeEntity} (ht : t ∈ m.types) :
      ∃ t' ∈ m'.types, t'.qualifiedName = t.qualifiedName ∧ t'.info = t.info := by
    obtain ⟨t', ht', heq⟩ := List.mem_map.1 (h.types.mem_iff.1 (List.mem_map_of_mem ht))
    refine ⟨t', ht', ?_, ?_⟩
    · exact TypeEntity.eq_of_unnumbered_eq (·.qualifiedName) (fun _ => rfl) heq
    · exact TypeEntity.eq_of_unnumbered_eq (·.info) (fun _ => rfl) heq
  obtain ⟨⟨t, ht, rfl, hparents⟩, q, hq, rfl⟩ := hp
  obtain ⟨t', ht', hname, hinfo⟩ := hmem ht
  obtain ⟨q', hq', hname', -⟩ := hmem hq
  exact ⟨⟨t', ht', hname, hinfo ▸ hparents⟩, q', hq', hname'⟩

lemma acyclic (ha : m.Acyclic) : m'.Acyclic := by
  intro n hn
  exact ha n (Relation.TransGen.mono (fun _ _ hp => h.symm.inherits hp) _ _ hn)

lemma mem_typeNames (n : Text) :
    n ∈ m.types.map (·.qualifiedName) ↔ n ∈ m'.types.map (·.qualifiedName) :=
  (h.map_types fun _ => rfl).mem_iff

end

section

variable (h : m.Alike m') (hm : m.Consistent) (hm' : m'.Consistent)

include h hm hm'

lemma shownDoc (inherits : Bool) (e : Entity) : m.shownDoc inherits e = m'.shownDoc inherits e := by
  rw [Model.shownDoc, Model.shownDoc, h.fullDoc hm hm']

lemma typesOf (inherits : Bool) (p : Text) :
    (m.viewOf inherits).typesOf p = (m'.viewOf inherits).typesOf p := by
  rw [View.typesOf, View.typesOf, viewOf, viewOf,
    Table.get?_ofEntries_map _ hm.packageNames_nodup,
    Table.get?_ofEntries_map _ hm'.packageNames_nodup, h.packageNames,
    sortNames_congr (h.typeNamesIn p)]

lemma viewMembersOf (inherits : Bool) (t : Text) :
    (m.viewOf inherits).membersOf t = (m'.viewOf inherits).membersOf t := by
  rw [View.membersOf, View.membersOf, viewOf, viewOf,
    Table.get?_ofEntries_map _ (typeNames_nodup hm.distinct),
    Table.get?_ofEntries_map _ (typeNames_nodup hm'.distinct), emittedMembers, emittedMembers,
    h.membersIn]
  simp only [h.mem_typeNames]

/-- Alike models have alike views. -/
theorem viewOf (ha : m.Acyclic) (inherits : Bool) :
    (m.viewOf inherits).Alike (m'.viewOf inherits) where
  packages := h.packageNames
  typesOf := h.typesOf hm hm' inherits
  membersOf := h.viewMembersOf hm hm' inherits
  doc := by
    intro n
    rw [doc_viewOf hm ha, doc_viewOf hm' (h.acyclic ha)]
    rcases map_eq_map_cases (h.find? hm hm' n) with ⟨he, he'⟩ | ⟨e, e', he, he', heq⟩
    · rw [he, he', Option.map_none, Option.map_none]
    · rw [he, he', Option.map_some, Option.map_some, ← shownDoc_unnumbered, heq,
        shownDoc_unnumbered, h.shownDoc hm hm']

end

end Alike

end Model

/-! ### Targets -/

namespace Targeting

variable {m m' : Model} (hm : m.Consistent) (hm' : m'.Consistent) (h : m.Alike m')

include hm hm' h

lemma addMember_alike (page : Text) {t t' : TypeEntity} (ht : t.unnumbered = t'.unnumbered) :
    addMember m page t = addMember m' page t' := by
  have htitle : t.title = t'.title :=
      TypeEntity.eq_of_unnumbered_eq (·.title) (fun _ => rfl) ht
  funext s name
  rw [addMember, addMember]
  rcases map_eq_map_cases (h.find? hm hm' name) with ⟨he, he'⟩ | ⟨e, e', he, he', heq⟩
  · rw [he, he']
  · have hheading : e.heading = e'.heading :=
      Entity.eq_of_unnumbered_eq (·.heading) (fun _ => rfl) heq
    rw [he, he']
    simp only [htitle, hheading]

variable {v v' : View} (hv : v.Alike v')

include hv

lemma addType_alike (settings : Settings) (packagePage : Text) :
    addType m v settings packagePage = addType m' v' settings packagePage := by
  funext s name
  rw [addType, addType]
  rcases map_eq_map_cases (h.findType? hm hm' name) with ⟨ht, ht'⟩ | ⟨t, t', ht, ht', heq⟩
  · rw [ht, ht']
  · have htitle : t.title = t'.title :=
      TypeEntity.eq_of_unnumbered_eq (·.title) (fun _ => rfl) heq
    have hheading : t.heading = t'.heading :=
      TypeEntity.eq_of_unnumbered_eq (·.heading) (fun _ => rfl) heq
    rw [ht, ht']
    simp only [htitle, hheading, hv.membersOf, addMember_alike hm hm' h _ heq]

lemma addPackage_alike (settings : Settings) :
    addPackage m v settings = addPackage m' v' settings := by
  funext s name
  rw [addPackage, addPackage, hv.typesOf, addType_alike hm hm' h hv]

end Targeting

/-- In alike views every entity has the same target. -/
theorem Model.Alike.targets {m m' : Model} (h : m.Alike m') (hm : m.Consistent)
    (hm' : m'.Consistent) {v v' : View} (hv : v.Alike v') (settings : Settings) :
    m.targets v settings = m'.targets v' settings := by
  rw [Model.targets, Model.targets, Targeting.addPackage_alike hm hm' h hv, hv.packages]

end ApiDocs
