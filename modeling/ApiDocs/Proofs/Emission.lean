import ApiDocs.Proofs.WellFormed
import ApiDocs.View

/-!
# The order of emission

The view of a consistent model lists every name once: packages and the types of a package in
ascending order, and the members of a type by kind, where those of one kind keep the order in which
they were declared.
-/

namespace ApiDocs

open scoped List

/-- Taking each element together with what belongs to it is taking first the elements and then what
belongs to them. -/
lemma perm_flatMap_cons {α : Type} (as : List α) (f : α → List α) :
    (as.flatMap fun a => a :: f a) ~ as ++ as.flatMap f := by
  have h := List.flatMap_append_perm as (fun a => [a]) f
  rw [List.flatMap_singleton'] at h
  exact h.symm

/-! ### Members by kind -/

def Kind.emitted : List Kind := [.member .constructor, .member .field, .member .method]

/-- The rank of a kind of members; other kinds are not ranked. -/
def Kind.rank : Kind → Nat
  | .member k => k.rank
  | _ => 0

/-- Members by kind, those of one kind in the order given. -/
def byKind (es : List Entity) : List Entity := Kind.emitted.flatMap fun k => es.filter (·.kind = k)

lemma memberRank_eq {e : Entity} (h : e.kind.isMember = true) : e.memberRank = .ok e.kind.rank := by
  rw [Entity.kind] at h ⊢
  rw [Entity.memberRank]
  cases hc : e.category with
  | package => rw [hc] at h; cases h
  | type info => rw [hc] at h; cases h
  | member k => rfl

lemma Kind.mem_emitted {k : Kind} (h : k.isMember = true) : k ∈ Kind.emitted := by
  cases k with
  | package => cases h
  | type => cases h
  | member k => cases k <;> decide

lemma byKind_perm {es : List Entity} (h : ∀ e ∈ es, e.kind.isMember = true) :
    (byKind es).Perm es :=
  perm_flatMap_filter Entity.kind (by decide) fun e he => Kind.mem_emitted (h e he)

lemma emittedBefore_iff {a b : Nat × Entity} :
    emittedBefore a b = true ↔ a.1 < b.1 ∨ (a.1 = b.1 ∧ a.2.index ≤ b.2.index) := by
  simp [emittedBefore]

lemma kind_of_mem_filter {es : List Entity} {k : Kind} {e : Entity}
    (h : e ∈ es.filter (·.kind = k)) : e.kind = k :=
  of_decide_eq_true (List.mem_filter.1 h).2

/-- Listing members by kind keeps those of each kind as they are. -/
lemma filter_byKind (es : List Entity) {k : Kind} (hk : k ∈ Kind.emitted) :
    (byKind es).filter (·.kind = k) = es.filter (·.kind = k) := by
  have hgroup (k' : Kind) : (es.filter (·.kind = k')).filter (·.kind = k) =
      if k' = k then es.filter (·.kind = k) else [] := by
    by_cases heq : k' = k
    · subst heq
      simp
    · rw [if_neg heq, List.filter_eq_nil_iff]
      intro e he
      rw [kind_of_mem_filter he]
      simpa using heq
  simp only [byKind, List.filter_flatMap, hgroup]
  simp only [Kind.emitted, List.mem_cons, List.not_mem_nil, or_false] at hk
  rcases hk with rfl | rfl | rfl <;> simp [Kind.emitted]

lemma byKind_byKind (es : List Entity) : byKind (byKind es) = byKind es :=
  List.flatMap_congr fun _ hk => filter_byKind es hk
/-- Members by kind ascend by rank, and those of one rank by their numbers. -/
lemma byKind_ascending {es : List Entity} (hindex : es.Pairwise (·.index < ·.index)) :
    ((byKind es).map fun e => (e.kind.rank, e)).Pairwise fun a b => emittedBefore a b = true := by
  rw [List.pairwise_map, byKind, List.pairwise_flatMap]
  refine ⟨fun k _ => ?_, ?_⟩
  · refine (hindex.filter _).imp_of_mem fun {a b} ha hb hab => emittedBefore_iff.2 (.inr ?_)
    exact ⟨by rw [kind_of_mem_filter ha, kind_of_mem_filter hb], Int.le_of_lt hab⟩
  · have hranks : Kind.emitted.Pairwise fun k k' => k.rank < k'.rank := by decide
    refine hranks.imp fun {k k'} hlt a ha b hb => emittedBefore_iff.2 (.inl ?_)
    rwa [kind_of_mem_filter ha, kind_of_mem_filter hb]

/-- Members that are numbered in their order are emitted by kind. -/
lemma orderMembers_eq {es : List Entity} (hmember : ∀ e ∈ es, e.kind.isMember = true)
    (hindex : es.Pairwise (·.index < ·.index)) : orderMembers es = .ok (byKind es) := by
  have hranked : es.mapM (fun e => (·, e) <$> e.memberRank) =
      .ok (es.map fun e => (e.kind.rank, e)) :=
    mapM_ok fun e he => by rw [memberRank_eq (hmember e he), map_ok]
  have hinj : ∀ a ∈ es, ∀ b ∈ es, a.index = b.index → a = b := by
    refine fun a ha b hb => List.inj_on_of_nodup_map ?_ ha hb
    exact (List.pairwise_map.2 hindex).imp fun hab heq => absurd heq (Int.ne_of_lt hab)
  have hsorted : sortBy emittedBefore (es.map fun e => (e.kind.rank, e)) =
      (byKind es).map fun e => (e.kind.rank, e) := by
    refine sortBy_eq_of_ascending (fun a b => ?_) (fun a b c => ?_) ?_ ?_
      (byKind_ascending hindex)
    · rw [Bool.or_eq_true, emittedBefore_iff, emittedBefore_iff]
      omega
    · rw [emittedBefore_iff, emittedBefore_iff, emittedBefore_iff]
      omega
    · intro a ha b hb hab hba
      obtain ⟨x, hx, rfl⟩ := List.mem_map.1 ha
      obtain ⟨y, hy, rfl⟩ := List.mem_map.1 hb
      rw [emittedBefore_iff] at hab hba
      have hindex : x.index = y.index := by
        simp only at hab hba
        omega
      rw [hinj x hx y hy hindex]
    · exact (byKind_perm hmember).map _
  rw [orderMembers]
  simp only [hranked, ok_bind, hsorted, List.map_map, Function.comp_def, List.map_id']
  rfl

namespace Model

/-! ### The view -/

/-- The names of a model are those of its packages, types and members. -/
lemma names_perm (m : Model) : ((m.ofKind .package).map (·.qualifiedName) ++
    m.types.map (·.qualifiedName) ++
    (m.entities.filter (·.kind.isMember)).map (·.qualifiedName)) ~ m.names := by
  rw [ofKind, types, names]
  induction m.entities with
  | nil => exact .refl _
  | cons e es ih =>
    cases hc : e.category with
    | package =>
      have hkind : e.kind = .package := by rw [Entity.kind, hc]
      simpa [hkind, Entity.asType?, Entity.typeInfo?, hc, Kind.isMember] using ih
    | type info =>
      have hkind : e.kind = .type := by rw [Entity.kind, hc]
      rw [List.append_assoc] at ih
      simpa [hkind, Entity.asType?, Entity.typeInfo?, hc, Kind.isMember] using
        List.perm_middle.trans (ih.cons e.qualifiedName)
    | member k =>
      have hkind : e.kind = .member k := by rw [Entity.kind, hc]
      simpa [hkind, Entity.asType?, Entity.typeInfo?, hc, Kind.isMember] using
        List.perm_middle.trans (ih.cons e.qualifiedName)

def packageNames (m : Model) : List Text := sortNames ((m.ofKind .package).map (·.qualifiedName))

/-- The names of the members of a type in the order of emission. -/
def emittedMembers (m : Model) (type : Text) : List Text :=
  (byKind (m.membersIn type)).map (·.qualifiedName)

def viewOf (m : Model) (inherits : Bool) : View where
  packages := m.packageNames
  typesByPackage := .ofEntries (m.packageNames.map fun p => (p, sortNames (m.typeNamesIn p)))
  membersByType := .ofEntries ((m.types.map (·.qualifiedName)).map fun t => (t, m.emittedMembers t))
  docs := .ofEntries (m.docs inherits)

variable {m : Model}

lemma mem_packageNames {p : Text} :
    p ∈ m.packageNames ↔ ∃ e ∈ m.entities, e.kind = .package ∧ e.qualifiedName = p := by
  simp [packageNames, ofKind, and_assoc]

lemma isMember_of_mem_membersIn {scope : Text} :
    ∀ e ∈ m.membersIn scope, e.kind.isMember = true := by
  intro e he
  have h := (List.mem_filter.1 he).2
  rw [Bool.and_eq_true] at h
  exact h.1

namespace Consistent

variable (h : m.Consistent)

include h

/-- Every consistent model has a view. -/
lemma view_eq (inherits : Bool) : m.view inherits = .ok (m.viewOf inherits) := by
  have hmembers : ∀ t ∈ m.types, (do
      let ordered ← orderMembers (m.membersOf t.qualifiedName)
      return (t.qualifiedName, ordered.map Entity.qualifiedName) : Except Failure _) =
      .ok (t.qualifiedName, m.emittedMembers t.qualifiedName) := by
    intro t ht
    rw [h.membersOf_eq ht, orderMembers_eq isMember_of_mem_membersIn (h.numbered _), ok_bind]
    rfl
  rw [view]
  simp only [mapM_ok hmembers, ok_bind, h.names_typesInPackage]
  rw [viewOf, List.map_map]
  rfl

lemma packageNames_nodup : m.packageNames.Nodup :=
  (sortNames_perm _).nodup_iff.2 (h.distinct.sublist (List.filter_sublist.map _))

lemma packageNames_ascending : m.packageNames.Pairwise (· < ·) :=
  sortNames_strict (h.distinct.sublist (List.filter_sublist.map _))

lemma typesOf_viewOf {inherits : Bool} {p : Text} (hp : p ∈ m.packageNames) :
    (m.viewOf inherits).typesOf p = sortNames (m.typeNamesIn p) := by
  rw [View.typesOf, viewOf, Table.get?_ofEntries_map _ h.packageNames_nodup, if_pos hp]
  rfl

lemma membersOf_viewOf {inherits : Bool} {t : TypeEntity} (ht : t ∈ m.types) :
    (m.viewOf inherits).membersOf t.qualifiedName = m.emittedMembers t.qualifiedName := by
  rw [View.membersOf, viewOf, Table.get?_ofEntries_map _ (typeNames_nodup h.distinct),
    if_pos (List.mem_map.2 ⟨t, ht, rfl⟩)]
  rfl

/-- The types of the packages are all types. -/
lemma typesOf_perm (inherits : Bool) :
    (m.packageNames.flatMap (m.viewOf inherits).typesOf) ~ m.types.map (·.qualifiedName) := by
  have hpackages : ∀ t ∈ m.types, t.info.package ∈ m.packageNames := fun t ht =>
    mem_packageNames.2 (h.packages t ht)
  have hgroups := (perm_flatMap_filter (·.info.package) h.packageNames_nodup hpackages).map
    TypeEntity.qualifiedName
  rw [List.map_flatMap] at hgroups
  refine (List.Perm.flatMap_left _ fun p hp => ?_).trans hgroups
  rw [h.typesOf_viewOf hp]
  exact sortNames_perm _

/-- The members of the types are all members. -/
lemma membersOf_perm (inherits : Bool) :
    ((m.types.map (·.qualifiedName)).flatMap (m.viewOf inherits).membersOf) ~
      (m.entities.filter (·.kind.isMember)).map (·.qualifiedName) := by
  have hscopes : ∀ e ∈ m.entities.filter (·.kind.isMember),
      e.scope ∈ m.types.map (·.qualifiedName) := fun e he =>
    List.mem_map.2 (h.scopes e (List.mem_filter.1 he).1 (List.mem_filter.1 he).2)
  have hgroups := (perm_flatMap_filter Entity.scope (typeNames_nodup h.distinct) hscopes).map
    Entity.qualifiedName
  rw [List.map_flatMap] at hgroups
  refine (List.Perm.flatMap_left _ fun n hn => ?_).trans hgroups
  obtain ⟨t, ht, rfl⟩ := List.mem_map.1 hn
  rw [h.membersOf_viewOf ht, List.filter_filter]
  refine ((byKind_perm isMember_of_mem_membersIn).map _).trans ?_
  rw [membersIn]
  simp only [Bool.and_comm]
  exact .refl _

/-- Nothing is lost or doubled in the order of emission. -/
theorem sequence_perm (inherits : Bool) : (m.viewOf inherits).sequence.Perm m.names := by
  let types := m.types.map (·.qualifiedName)
  calc (m.viewOf inherits).sequence
    _ ~ m.packageNames ++ (m.packageNames.flatMap (m.viewOf inherits).typesOf).flatMap
          fun t => t :: (m.viewOf inherits).membersOf t := by
      rw [List.flatMap_assoc]
      exact perm_flatMap_cons _ _
    _ ~ m.packageNames ++ types.flatMap fun t => t :: (m.viewOf inherits).membersOf t :=
      ((h.typesOf_perm inherits).flatMap_right _).append_left _
    _ ~ m.packageNames ++ (types ++ types.flatMap (m.viewOf inherits).membersOf) :=
      (perm_flatMap_cons _ _).append_left _
    _ ~ (m.ofKind .package).map (·.qualifiedName) ++
          (types ++ (m.entities.filter (·.kind.isMember)).map (·.qualifiedName)) :=
      (sortNames_perm _).append ((h.membersOf_perm inherits).append_left _)
    _ ~ m.names := by
      rw [← List.append_assoc]
      exact names_perm m

lemma sequence_nodup (inherits : Bool) : (m.viewOf inherits).sequence.Nodup :=
  (h.sequence_perm inherits).nodup_iff.2 h.distinct

end Consistent

end Model

end ApiDocs
