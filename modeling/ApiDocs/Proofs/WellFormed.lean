import ApiDocs.Proofs.Consistent
import ApiDocs.Proofs.Extraction

/-!
# The shape of extracted models

An extracted model lists each package with its types and their members, in source order. Types and
members point at each other, the index of packages lists the types of each package, and ancestors
are types of the model.
-/

namespace ApiDocs

open Extraction

open scoped Classical in
/-- What a model says of the declarations that were kept. -/
structure Model.WellFormed (limit : Visibility) (ds : List Declaration) (m : Model) : Prop
    extends m.Consistent where
  /-- Each package is followed by its types and then by the members of these, in source order. -/
  keys : m.entities.map (fun e => (e.kind, e.qualifiedName)) =
    (packagesOf ds).flatMap fun p =>
      (.package, p.name) ::
        (((keptTypes limit ds).filter fun d =>
            InPackage (kept limit ds).packageNames (keptTypes limit ds) d.typeName p.name).map
          fun d => (.type, d.typeName)) ++
        (((keptMembers limit ds).filter fun d =>
            InPackage (kept limit ds).packageNames (keptTypes limit ds) d.scope p.name).map
          fun d => (.member (memberKind d), memberQualifiedName d))
  /-- An entity is found under its own name, and nothing else is. -/
  stored : ∀ n e, m.find? n = some e ↔ e ∈ m.entities ∧ e.qualifiedName = n
  /-- A type says in which package it lies. -/
  nesting : ∀ t ∈ m.types,
    InPackage (kept limit ds).packageNames (keptTypes limit ds) t.qualifiedName t.info.package
  /-- The members of a type are those declared in it, in source order. -/
  declared : ∀ n, (m.membersIn n).map (fun e => (e.kind, e.qualifiedName)) =
    ((keptMembers limit ds).filter (·.scope = n)).map fun d =>
      (.member (memberKind d), memberQualifiedName d)
  /-- No member is listed twice. -/
  membersDistinct : ∀ t ∈ m.types, t.info.members.Nodup
  /-- The index lists in ascending order the types that are in a package, if there are any. -/
  indexed : ∀ p names, m.packageTypes.get? p = some names ↔
    names ≠ [] ∧ names.Pairwise (· < ·) ∧
      ∀ n, n ∈ names ↔ ∃ t ∈ m.types, t.qualifiedName = n ∧ t.info.package = p
  ancestorKeys : m.ancestors.keys = m.types.map (·.qualifiedName)
  /-- Ancestors are types of the model. -/
  ancestorTypes : ∀ n names, m.ancestors.get? n = some names →
    ∀ a ∈ names, a ∈ m.types.map (·.qualifiedName)

namespace Extraction

/-! ### Where entities are placed -/

lemma map_placedIn {α : Type} (p : Text) (placed : List (Text × Entity)) (f : Entity → α) :
    (placedIn p placed).map f =
      ((placed.map fun q => (q.1, f q.2)).filter (·.1 = p)).map (·.2) := by
  rw [placedIn, List.filter_map, List.map_map, List.map_map]
  rfl

/-- If what a filter lets through is placed in one package, it is found there in order. -/
lemma filter_flatMap_placedIn {packages : List Text} (hp : packages.Nodup)
    {placed : List (Text × Entity)} (hplaced : ∀ x ∈ placed, x.1 ∈ packages) {q : Entity → Bool}
    {p : Text} (h : ∀ x ∈ placed, q x.2 = true → x.1 = p) :
    (packages.flatMap fun p => placedIn p placed).filter q = (placed.map (·.2)).filter q := by
  have hother {p' : Text} (hne : p' ≠ p) : (placedIn p' placed).filter q = [] := by
    rw [List.filter_eq_nil_iff]
    intro e he hq
    obtain ⟨x, hx, rfl⟩ := List.mem_map.1 he
    obtain ⟨hx, hxp⟩ := List.mem_filter.1 hx
    exact hne ((of_decide_eq_true hxp).symm.trans (h x hx hq))
  have hown : (placedIn p placed).filter q = (placed.map (·.2)).filter q := by
    rw [placedIn, List.filter_map, List.filter_filter, List.filter_map]
    congr 1
    refine List.filter_congr fun x hx => ?_
    by_cases hq : q x.2 = true
    · simp [hq, h x hx hq]
    · simp [hq]
  rw [List.filter_flatMap]
  -- only the part of one package lets anything through, and `packages` has it once or not at all
  by_cases hmem : p ∈ packages
  · obtain ⟨before, after, rfl⟩ := List.append_of_mem hmem
    simp only [List.nodup_append, List.nodup_cons] at hp
    have hbefore : before.flatMap (fun p => (placedIn p placed).filter q) = [] :=
      List.flatMap_eq_nil_iff.2 fun p' hp' =>
        hother fun heq => hp.2.2 p' hp' p (List.mem_cons_self ..) heq
    have hafter : after.flatMap (fun p => (placedIn p placed).filter q) = [] :=
      List.flatMap_eq_nil_iff.2 fun p' hp' => hother fun heq => hp.2.1.1 (heq ▸ hp')
    rw [List.flatMap_append, List.flatMap_cons, hbefore, hafter, hown]
    simp
  · rw [List.flatMap_eq_nil_iff.2 fun p' hp' => hother fun heq => hmem (heq ▸ hp')]
    refine (List.filter_eq_nil_iff.2 fun e he hq => ?_).symm
    obtain ⟨x, hx, rfl⟩ := List.mem_map.1 he
    exact hmem (h x hx hq ▸ hplaced x hx)

/-- Where a function takes distinct values, one element has a value. -/
lemma filter_eq_singleton {α β : Type} [DecidableEq β] {f : α → β} {as : List α}
    (h : (as.map f).Nodup) {a : α} (ha : a ∈ as) : as.filter (f · = f a) = [a] := by
  obtain ⟨before, after, rfl⟩ := List.append_of_mem ha
  rw [List.map_append, List.map_cons, List.nodup_append, List.nodup_cons] at h
  have hbefore : before.filter (f · = f a) = [] :=
    List.filter_eq_nil_iff.2 fun b hb => by
      simpa using h.2.2 _ (List.mem_map_of_mem hb) _ (List.mem_cons_self ..)
  have hafter : after.filter (f · = f a) = [] :=
    List.filter_eq_nil_iff.2 fun b hb => by
      simpa using fun heq : f b = f a => h.2.1.1 (heq ▸ List.mem_map_of_mem hb)
  rw [List.filter_append, List.filter_cons_of_pos (by simp), hbefore, hafter]
  rfl

/-! ### The entities of a model -/

section

variable {n : Nat} {s : Sorted} {known : Table Text}

lemma mem_packageNames_of_fits (ht : PackageTable s known) (hs : s.Fits) :
    ∀ q ∈ placedOf n s known, q.1 ∈ s.packageNames :=
  mem_packageNames_of_mem_placedOf ht (ht.mem_keys_of_scope hs.scopes)

/-- Merging the partitions loses and adds nothing. -/
lemma entitiesOf_perm (ht : PackageTable s known) (hs : s.Fits) :
    (entitiesOf n s known).Perm ((placedOf n s known).map (·.2)) := by
  have h := (perm_flatMap_filter Prod.fst hs.packageNames_nodup
    (mem_packageNames_of_fits (n := n) ht hs)).map Prod.snd
  rw [List.map_flatMap] at h
  exact h

lemma names_modelOf_perm (ht : PackageTable s known) (hs : s.Fits) :
    (modelOf n s known).names.Perm s.names := by
  rw [← names_placedOf n s known]
  have h := (entitiesOf_perm (n := n) ht hs).map (·.qualifiedName)
  rwa [List.map_map] at h

lemma names_modelOf_nodup (ht : PackageTable s known) (hs : s.Fits) :
    (modelOf n s known).names.Nodup :=
  (names_modelOf_perm ht hs).nodup_iff.2 hs.distinct

lemma mem_entitiesOf (ht : PackageTable s known) (hs : s.Fits) {e : Entity} :
    e ∈ (modelOf n s known).entities ↔
      (∃ i, ∃ h : i < s.packages.length, packageEntity n i s.packages[i] = e) ∨
      (∃ nd ∈ numbered [] s.types, typeOf n s known nd = e) ∨ e ∈ memberEntities n s := by
  have hperm := (entitiesOf_perm (n := n) ht hs).mem_iff (a := e)
  rw [placedOf, List.map_append, List.map_append, List.mem_append, List.mem_append] at hperm
  refine hperm.trans ?_
  rw [or_assoc]
  simp [List.mem_mapIdx]

/-- The types of a model are those of the kept declarations. -/
lemma mem_types_modelOf (ht : PackageTable s known) (hs : s.Fits) {t : TypeEntity} :
    t ∈ (modelOf n s known).types ↔
      ∃ nd ∈ numbered [] s.types, (typeOf n s known nd).asType? = some t := by
  rw [Model.types, List.mem_filterMap]
  constructor
  · rintro ⟨e, he, hte⟩
    rcases (mem_entitiesOf ht hs).1 he with ⟨i, hi, rfl⟩ | ⟨nd, hnd, rfl⟩ | he
    · cases hte
    · exact ⟨nd, hnd, hte⟩
    · obtain ⟨nd, -, rfl⟩ := List.mem_map.1 he
      cases hte
  · rintro ⟨nd, hnd, hte⟩
    exact ⟨_, (mem_entitiesOf ht hs).2 (.inr (.inl ⟨nd, hnd, rfl⟩)), hte⟩

/-- Package by package, the kinds and names of the entities are those of the declarations. -/
lemma keys_placedIn (hs : s.Fits) {d : Declaration}
    (hd : d ∈ s.packages) :
    (placedIn d.name (placedOf n s known)).map (fun e => (e.kind, e.qualifiedName)) =
      (.package, d.name) ::
        ((s.types.filter fun t => packageOf known t.typeName = d.name).map
          fun t => (.type, t.typeName)) ++
        ((s.members.filter fun m => packageOf known m.scope = d.name).map
          fun m => (.member (memberKind m), memberQualifiedName m)) := by
  have hplaced : (placedOf n s known).map (fun q => (q.1, (q.2.kind, q.2.qualifiedName))) =
      s.packages.map (fun d => (d.name, (Kind.package, d.name))) ++
      s.types.map (fun t => (packageOf known t.typeName, (Kind.type, t.typeName))) ++
      s.members.map fun m =>
        (packageOf known m.scope, (Kind.member (memberKind m), memberQualifiedName m)) := by
    rw [placedOf, memberEntities, List.map_append, List.map_append, List.map_map, List.map_map,
      List.map_map,
      map_mapIdx_eq (h := fun d => (d.name, (Kind.package, d.name))) (fun _ _ => by rfl)]
    congr 1
    · congr 1
      exact map_numbered
        (fun t => (packageOf known t.typeName, (Kind.type, t.typeName))) [] s.types
    · exact map_numbered (fun m =>
        (packageOf known m.scope, (Kind.member (memberKind m), memberQualifiedName m))) _ _
  have hself : s.packages.filter (·.name = d.name) = [d] :=
    filter_eq_singleton hs.packageNames_nodup hd
  rw [map_placedIn, hplaced]
  simp only [List.filter_append, List.filter_map, List.map_append, List.map_map,
    Function.comp_def, hself]
  rfl

open scoped Classical in
/-- The entities of a model come package by package, in each first the types and then the members
that lie in it. -/
lemma keys_modelOf (ht : PackageTable s known) (hs : s.Fits) :
    (modelOf n s known).entities.map (fun e => (e.kind, e.qualifiedName)) =
      s.packages.flatMap fun p =>
        (.package, p.name) ::
          ((s.types.filter fun t => InPackage s.packageNames s.types t.typeName p.name).map
            fun t => (.type, t.typeName)) ++
          ((s.members.filter fun m => InPackage s.packageNames s.types m.scope p.name).map
            fun m => (.member (memberKind m), memberQualifiedName m)) := by
  have hpackage {t p : Text} (h : t ∈ known.keys) :
      packageOf known t = p ↔ InPackage s.packageNames s.types t p :=
    ⟨fun heq => heq ▸ ht.inPackage h, ht.packageOf_eq⟩
  change (entitiesOf n s known).map _ = _
  rw [entitiesOf, Sorted.packageNames, List.flatMap_map, List.map_flatMap]
  apply List.flatMap_congr
  intro d hd
  rw [keys_placedIn hs hd]
  congr 2
  · congr 1
    apply List.filter_congr
    intro t htm
    exact decide_eq_decide.2 (hpackage (ht.mem_keys_of_type htm))
  · apply List.filter_congr
    intro m hm
    exact decide_eq_decide.2 (hpackage (ht.mem_keys_of_scope hs.scopes m hm))

/-- The member entities with a scope are those of the declarations with it. -/
lemma map_filter_memberEntities {α : Type} {f : Entity → α} {g : Declaration → α}
    (hfg : ∀ i d, f (memberEntity n i d) = g d) (scope : Text) :
    ((memberEntities n s).filter (·.scope = scope)).map f =
      (s.members.filter (·.scope = scope)).map g := by
  conv_rhs => rw [← map_snd_numbered s.types s.members, List.filter_map, List.map_map]
  rw [memberEntities, List.filter_map, List.map_map]
  refine List.map_congr_left fun nd _ => hfg nd.1 nd.2

lemma memberEntities_pairwise (scope : Text) :
    ((memberEntities n s).filter (·.scope = scope)).Pairwise (·.index < ·.index) := by
  rw [memberEntities, List.filter_map, List.pairwise_map]
  refine ((numbered_pairwise s.types s.members).filter _).imp_of_mem fun {a b} ha hb hab => ?_
  have hscope {nd : Nat × Declaration} (h : nd ∈ (numbered s.types s.members).filter
      ((fun e : Entity => decide (e.scope = scope)) ∘ fun nd => memberEntity n nd.1 nd.2)) :
      nd.2.scope = scope := by
    exact of_decide_eq_true (List.mem_filter.1 h).2
  exact Int.ofNat_lt.2 (hab ((hscope ha).trans (hscope hb).symm))

lemma isMember_memberEntities {e : Entity} (he : e ∈ memberEntities n s) :
    e.kind.isMember = true := by
  obtain ⟨nd, -, rfl⟩ := List.mem_map.1 he
  rfl

/-- Members are placed in the package of their scope. -/
lemma member_of_mem_placedOf {q : Text × Entity} (hq : q ∈ placedOf n s known)
    (hmember : q.2.kind.isMember = true) :
    q.2 ∈ memberEntities n s ∧ q.1 = packageOf known q.2.scope := by
  rw [placedOf, List.mem_append, List.mem_append] at hq
  rcases hq with (hq | hq) | hq
  · obtain ⟨i, hi, rfl⟩ := List.mem_mapIdx.1 hq
    cases hmember
  · obtain ⟨nd, hnd, rfl⟩ := List.mem_map.1 hq
    cases hmember
  · obtain ⟨e, he, rfl⟩ := List.mem_map.1 hq
    exact ⟨he, rfl⟩

/-- The members in the model are those of the declarations. -/
lemma mem_memberEntities (ht : PackageTable s known) (hs : s.Fits) {e : Entity}
    (he : e ∈ (modelOf n s known).entities) (hmember : e.kind.isMember = true) :
    e ∈ memberEntities n s := by
  rcases (mem_entitiesOf ht hs).1 he with ⟨i, hi, rfl⟩ | ⟨nd, hnd, rfl⟩ | he
  · cases hmember
  · cases hmember
  · exact he

variable (known) in
/-- The members that are placed are those of the declarations. -/
lemma filter_isMember_placedOf :
    ((placedOf n s known).map (·.2)).filter (·.kind.isMember) = memberEntities n s := by
  have hpackages : ((s.packages.mapIdx fun i d => (d.name, packageEntity n i d)).map (·.2)).filter
      (·.kind.isMember) = [] := by
    refine List.filter_eq_nil_iff.2 fun e he => ?_
    obtain ⟨_, hq, rfl⟩ := List.mem_map.1 he
    obtain ⟨i, hi, rfl⟩ := List.mem_mapIdx.1 hq
    exact Bool.false_ne_true
  have htypes : (((numbered [] s.types).map fun nd =>
      (packageOf known nd.2.typeName, typeOf n s known nd)).map (·.2)).filter
        (·.kind.isMember) = [] := by
    refine List.filter_eq_nil_iff.2 fun e he => ?_
    obtain ⟨_, hq, rfl⟩ := List.mem_map.1 he
    obtain ⟨nd, hnd, rfl⟩ := List.mem_map.1 hq
    exact Bool.false_ne_true
  have hmembers : ((memberEntities n s).map fun e => (packageOf known e.scope, e)).map (·.2) =
      memberEntities n s := by
    simp [Function.comp_def]
  rw [placedOf, List.map_append, List.map_append, List.filter_append, List.filter_append,
    hpackages, htypes, hmembers]
  exact List.filter_eq_self.2 fun e he => isMember_memberEntities he

/-- The members in the model with a scope are those of the declarations with it. -/
lemma membersIn_modelOf (ht : PackageTable s known) (hs : s.Fits) (scope : Text) :
    (modelOf n s known).membersIn scope = (memberEntities n s).filter (·.scope = scope) := by
  change (entitiesOf n s known).filter (fun e => e.kind.isMember && e.scope = scope) = _
  rw [entitiesOf, filter_flatMap_placedIn hs.packageNames_nodup (mem_packageNames_of_fits ht hs)
    (p := packageOf known scope), ← filter_isMember_placedOf known, List.filter_filter]
  · exact List.filter_congr fun e _ => Bool.and_comm ..
  · intro q hq hmember
    simp only [Bool.and_eq_true, decide_eq_true_eq] at hmember
    rw [(member_of_mem_placedOf hq hmember.1).2, hmember.2]

lemma members_typeOf {d : Declaration} {i : Nat} {t : TypeEntity}
    (h : (typeOf n s known (i, d)).asType? = some t) :
    t.qualifiedName = d.typeName ∧ t.info.package = packageOf known d.typeName ∧
      t.info.members = memberNames (memberEntities n s) d.typeName := by
  cases h
  exact ⟨rfl, rfl, rfl⟩

/-- Each type of the model is that of a declaration, in the package where it lies and with the
members that are declared in it. -/
lemma exists_type_of_mem (ht : PackageTable s known) (hs : s.Fits) {t : TypeEntity}
    (hmem : t ∈ (modelOf n s known).types) : ∃ d ∈ s.types, t.qualifiedName = d.typeName ∧
      t.info.package = packageOf known d.typeName ∧
      t.info.members = memberNames (memberEntities n s) d.typeName := by
  obtain ⟨nd, hnd, htype⟩ := (mem_types_modelOf ht hs).1 hmem
  exact ⟨nd.2, exists_of_mem_numbered hnd, members_typeOf htype⟩

/-- The model of declarations that fit together is consistent. -/
lemma consistent_modelOf (ht : PackageTable s known) (hs : s.Fits)
    (hnames : ∀ d ∈ s.types, d.name ≠ []) : (modelOf n s known).Consistent := by
  have hdistinct : (modelOf n s known).names.Nodup := names_modelOf_nodup ht hs
  exact
  { distinct := hdistinct
    named := by
      intro t hmem
      obtain ⟨d, hd, hname, -⟩ := exists_type_of_mem ht hs hmem
      rw [hname]
      exact List.ne_nil_of_length_pos (Nat.zero_lt_of_lt (length_scope_lt (hnames d hd)))
    packages := by
      intro t hmem
      obtain ⟨d, hd, -, hpack, -⟩ := exists_type_of_mem ht hs hmem
      have hin := (ht.inPackage (ht.mem_keys_of_type hd)).mem_packages
      obtain ⟨i, hi, heq⟩ := List.getElem_of_mem hin
      rw [Sorted.packageNames, List.length_map] at hi
      refine ⟨_, (mem_entitiesOf ht hs).2 (.inl ⟨i, hi, rfl⟩), rfl, ?_⟩
      simp only [hpack, ← heq, Sorted.packageNames, List.getElem_map]
      rfl
    scopes := by
      intro e he hmember
      obtain ⟨d, hd, hscope⟩ := scope_of_mem_memberEntities (mem_memberEntities ht hs he hmember)
      obtain ⟨t, htm, hname⟩ := hs.scopes d hd
      obtain ⟨nd, hnd, rfl⟩ := List.mem_map.1 (map_snd_numbered [] s.types ▸ htm)
      exact ⟨_, (mem_types_modelOf ht hs).2 ⟨nd, hnd, rfl⟩, hname.trans hscope⟩
    members := by
      intro t hmem
      obtain ⟨d, hd, hname, -, hmembers⟩ := exists_type_of_mem ht hs hmem
      rw [hmembers, hname, membersIn_modelOf ht hs]
      rfl
    numbered := by
      intro scope
      rw [membersIn_modelOf ht hs]
      exact memberEntities_pairwise scope
    parameters := by
      intro e he
      rcases (mem_entitiesOf ht hs).1 he with ⟨i, hi, rfl⟩ | ⟨nd, hnd, rfl⟩ | he
      · rfl
      · rfl
      · obtain ⟨nd, hnd, rfl⟩ := List.mem_map.1 he
        simp [memberEntity, documentation]
    owned := by
      intro e he r hr
      rcases (mem_entitiesOf ht hs).1 he with ⟨i, hi, rfl⟩ | ⟨nd, hnd, rfl⟩ | he
      · exact owner_of_mem_documentation hr
      · exact owner_of_mem_documentation hr
      · obtain ⟨nd, hnd, rfl⟩ := List.mem_map.1 he
        exact owner_of_mem_documentation hr
    packageTypes := rfl
    ancestors := rfl }

end

/-- The model of what is kept is well formed. -/
lemma wellFormed_modelOf {n : Nat} {limit : Visibility} {ds : List Declaration}
    {known : Table Text} (ht : PackageTable (kept limit ds) known) (hs : (kept limit ds).Fits)
    (hnames : ∀ d ∈ keptTypes limit ds, d.name ≠ []) :
    (modelOf n (kept limit ds) known).WellFormed limit ds := by
  have hc : (modelOf n (kept limit ds) known).Consistent := consistent_modelOf ht hs hnames
  have hdeclared (scope : Text) :
      (((modelOf n (kept limit ds) known).membersIn scope).map fun e => (e.kind, e.qualifiedName)) =
        ((keptMembers limit ds).filter (·.scope = scope)).map fun d =>
          (.member (memberKind d), memberQualifiedName d) := by
    rw [membersIn_modelOf ht hs]
    exact map_filter_memberEntities (fun _ _ => rfl) scope
  exact
  { toConsistent := hc
    keys := keys_modelOf ht hs
    stored := fun _ _ => Model.find?_eq_some_iff hc.distinct
    nesting := by
      intro t hmem
      obtain ⟨d, hd, hname, hpack, -⟩ := exists_type_of_mem ht hs hmem
      rw [hname, hpack]
      exact ht.inPackage (ht.mem_keys_of_type hd)
    declared := hdeclared
    membersDistinct := by
      intro t hmem
      rw [hc.members t hmem]
      exact hc.distinct.sublist (List.filter_sublist.map _)
    indexed := Model.get?_packageIndex_eq_some_iff hc.distinct
    ancestorKeys := by
      rw [hc.ancestors, Model.keys_ancestors]
      exact Model.keys_supertypes hc.distinct
    ancestorTypes := by
      intro n names hnames a ha
      rw [hc.ancestors, Model.get?_ancestors] at hnames
      split at hnames
      · cases hnames
        rw [← Model.keys_supertypes hc.distinct]
        exact Supertypes.mem_keys_of_mem_ancestorsOf ha
      · cases hnames }

/-- Acceptable declarations have a well-formed model. -/
lemma Extractable.exists_wellFormed {limit : Visibility} {ds : List Declaration}
    (h : Extractable limit ds) (n : Nat) :
    ∃ x, extract n limit ds = .ok x ∧ x.model.WellFormed limit ds := by
  obtain ⟨known, ht, hok⟩ := extract_ok h n
  exact ⟨_, hok, wellFormed_modelOf ht h.fits (name_ne_nil_of_mem_keptTypes h.kinds)⟩

/-! ### The names of a model -/

open scoped Classical in
/-- The names that a limit leaves of a package, its types and their members. -/
noncomputable def namesIn (limit : Visibility) (ds : List Declaration) (package : Text) :
    List Text :=
  let inPackage := InPackage ((packagesOf ds).map (·.name)) (keptTypes limit ds)
  package ::
    ((keptTypes limit ds).filter fun d => inPackage d.typeName package).map (·.typeName) ++
    ((keptMembers limit ds).filter fun d => inPackage d.scope package).map memberQualifiedName

lemma names_eq_flatMap {limit : Visibility} {ds : List Declaration} {m : Model}
    (h : m.WellFormed limit ds) :
    m.names = (packagesOf ds).flatMap fun p => namesIn limit ds p.name := by
  have hnames : m.names = (m.entities.map fun e => (e.kind, e.qualifiedName)).map (·.2) := by
    rw [List.map_map]
    rfl
  rw [hnames, h.keys, List.map_flatMap]
  apply List.flatMap_congr
  intro p _
  simp only [List.cons_append, List.map_cons, List.map_append, List.map_map]
  rfl

end Extraction

lemma consistent_of_extract {n : Nat} {limit : Visibility} {ds : List Declaration} {x : Extracted}
    (h : extract n limit ds = .ok x) : x.model.Consistent := by
  obtain ⟨_, hx, hw⟩ := (extractable_of_extract h).exists_wellFormed n
  rw [h] at hx
  cases hx
  exact hw.toConsistent

/-- Every extracted model is well formed. -/
theorem extract_wellFormed {n : Nat} {limit : Visibility} {ds : List Declaration} {x : Extracted}
    (h : extract n limit ds = .ok x) : x.model.WellFormed limit ds := by
  obtain ⟨_, hx, hw⟩ := (extractable_of_extract h).exists_wellFormed n
  rw [h] at hx
  cases hx
  exact hw

/-- Declarations of two types, one with a supertype, and their members, out of order. -/
def shapes : List Declaration :=
  [ { kind := "class", name := "Circle", scope := "shapes", superclass := some "Shape" },
    { kind := "package", name := "shapes" },
    { kind := "field", name := "radius", scope := "shapes.Circle", modifiers := ["private"] },
    { kind := "class", name := "Shape", scope := "shapes" },
    { kind := "method", name := "area", scope := "shapes.Shape", comment := "The area." },
    { kind := "constructor", name := "", scope := "shapes.Circle" },
    { kind := "method", name := "area", scope := "shapes.Circle" } ]

theorem extract_wellFormed_shapes :
    ∃ x, extract 0 .package shapes = .ok x ∧ x.model.WellFormed .package shapes :=
  ⟨_, rfl, extract_wellFormed (n := 0) rfl⟩

end ApiDocs
