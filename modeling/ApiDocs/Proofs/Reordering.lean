import ApiDocs.Proofs.Alike
import ApiDocs.Proofs.WellFormed

/-!
# Declarations in another order

What is hidden, what is kept and where types lie does not depend on the order of the declarations.
If the members of every type stay in their order, the models extracted from the declarations are
alike.
-/

namespace ApiDocs

open scoped List

namespace Extraction

/-! ### What does not depend on the order -/

lemma Hidden.congr {limit : Visibility} {types types' : List Declaration}
    (h : ∀ d, d ∈ types → d ∈ types') {n : Text} (hn : Hidden limit types n) :
    Hidden limit types' n := by
  induction hn with
  | itself hd hrank => exact .itself (h _ hd) hrank
  | inside hd _ ih => exact .inside (h _ hd) ih

/-- Two lists that are the same at each value of a function are the same up to their order. -/
lemma perm_of_filter_eq {α β : Type} [DecidableEq α] [DecidableEq β] {f : α → β} {as bs : List α}
    (h : ∀ b, as.filter (f · = b) = bs.filter (f · = b)) : as.Perm bs := by
  rw [List.perm_iff_count]
  intro a
  have hcount (as : List α) : (as.filter (f · = f a)).count a = as.count a :=
    List.count_filter (by simp)
  rw [← hcount, h, hcount]

/-- The declarations of a scope are numbered one by one, after those that stand before. -/
lemma filter_numbered (scope : Text) (before ds : List Declaration) :
    (numbered before ds).filter (·.2.scope = scope) =
      (ds.filter (·.scope = scope)).mapIdx fun i d => (countInScope scope before + i, d) := by
  induction ds generalizing before with
  | nil => rfl
  | cons d ds ih =>
    rw [numbered]
    by_cases hscope : d.scope = scope
    · have hcount : countInScope scope (before ++ [d]) = countInScope scope before + 1 := by
        simp [countInScope, List.countP_append, hscope]
      rw [List.filter_cons_of_pos (by simpa using hscope),
        List.filter_cons_of_pos (by simpa using hscope), List.mapIdx_cons, ih, hcount, hscope]
      simp only [Nat.add_zero, Nat.add_assoc, Nat.add_comm 1]
    · have hcount : countInScope scope (before ++ [d]) = countInScope scope before := by
        simp [countInScope, List.countP_append, hscope]
      rw [List.filter_cons_of_neg (by simpa using hscope),
        List.filter_cons_of_neg (by simpa using hscope), ih, hcount]

/-! ### Entities without their places -/

lemma unnumbered_documentation (n : Nat) (name : Text) (d : Declaration) (e : Entity) :
    (documentation n name d e).unnumbered = documentation n name d e.unnumbered := by
  rw [documentation, documentation]
  generalize Comment.splitFirstSentence d.comment = texts
  obtain ⟨summary, body⟩ := texts
  rfl

lemma unnumbered_packageEntity (n i : Nat) (d : Declaration) :
    (packageEntity n i d).unnumbered = packageEntity n 0 d :=
  unnumbered_documentation _ _ _ _

lemma unnumbered_typeEntity (n : Nat) (known : Table Text) (package : Text) (members : List Text)
    (i : Nat) (d : Declaration) : (typeEntity n known package members i d).unnumbered =
      typeEntity n known package members 0 d :=
  unnumbered_documentation _ _ _ _

/-- The entities of sorted declarations, without the places of packages and types. -/
lemma unnumbered_placedOf (n : Nat) (s : Sorted) (known : Table Text) :
    ((placedOf n s known).map (·.2)).map Entity.unnumbered =
      s.packages.map (packageEntity n 0) ++
      s.types.map (fun d => typeEntity n known (packageOf known d.typeName)
        (memberNames (memberEntities n s) d.typeName) 0 d) ++
      (memberEntities n s).map Entity.unnumbered := by
  have hpackages : ((s.packages.mapIdx fun i d => (d.name, packageEntity n i d)).map (·.2)).map
      Entity.unnumbered = s.packages.map (packageEntity n 0) := by
    rw [List.map_map]
    refine map_mapIdx_eq (fun i d => ?_) _
    exact unnumbered_packageEntity n i d
  have htypes : (((numbered [] s.types).map fun nd =>
      (packageOf known nd.2.typeName, typeOf n s known nd)).map (·.2)).map Entity.unnumbered =
        s.types.map fun d => typeEntity n known (packageOf known d.typeName)
          (memberNames (memberEntities n s) d.typeName) 0 d := by
    rw [List.map_map, List.map_map, ← map_numbered _ [] s.types]
    exact List.map_congr_left fun nd _ => unnumbered_typeEntity ..
  have hmembers : ((memberEntities n s).map fun e => (packageOf known e.scope, e)).map (·.2) =
      memberEntities n s := by
    simp [Function.comp_def]
  rw [placedOf, List.map_append, List.map_append, List.map_append, List.map_append, hpackages,
    htypes, hmembers]

/-! ### Sorted declarations -/

/-- The same declarations in other orders, with the members of each scope in one order. -/
structure Sorted.Reordered (s s' : Sorted) : Prop where
  packages : s.packages.Perm s'.packages
  types : s.types.Perm s'.types
  members : ∀ scope, s.members.filter (·.scope = scope) = s'.members.filter (·.scope = scope)

namespace Sorted.Reordered

variable {n : Nat} {s s' : Sorted} {known known' : Table Text} (h : s.Reordered s')

include h

lemma memberEntities (scope : Text) :
    (memberEntities n s).filter (·.scope = scope) =
      (Extraction.memberEntities n s').filter (·.scope = scope) := by
  have hfilter (s : Sorted) : (Extraction.memberEntities n s).filter (·.scope = scope) =
      (((s.members.filter (·.scope = scope)).mapIdx fun i d =>
        (countInScope scope s.types + i, d)).map fun nd => memberEntity n nd.1 nd.2) := by
    rw [← filter_numbered, Extraction.memberEntities, List.filter_map]
    rfl
  have hcount : countInScope scope s.types = countInScope scope s'.types := h.types.countP_eq _
  rw [hfilter, hfilter, h.members, hcount]

lemma members_perm : s.members.Perm s'.members := perm_of_filter_eq h.members

lemma mem_packageNames (p : Text) : p ∈ s.packageNames ↔ p ∈ s'.packageNames :=
  (h.packages.map _).mem_iff

/-- Whether declarations fit together does not depend on their order. -/
lemma fits (hs : s.Fits) : s'.Fits where
  nesting := by
    intro d hd
    obtain ⟨p, hp⟩ := hs.nesting d (h.types.mem_iff.2 hd)
    exact ⟨p, hp.congr h.mem_packageNames fun _ => h.types.mem_iff.1⟩
  scopes := by
    intro d hd
    obtain ⟨t, ht, hscope⟩ := hs.scopes d (h.members_perm.mem_iff.2 hd)
    exact ⟨t, h.types.mem_iff.1 ht, hscope⟩
  distinct := by
    have hnames : s.names.Perm s'.names :=
      ((h.packages.map _).append (h.types.map _)).append (h.members_perm.map _)
    exact hnames.nodup_iff.1 hs.distinct

variable (ht : PackageTable s known) (ht' : PackageTable s' known')

include ht ht'

lemma get?_eq (name : Text) : known.get? name = known'.get? name := by
  ext1 p
  rw [ht.get?, ht'.get?]
  constructor
  · exact InPackage.congr h.mem_packageNames fun d => h.types.mem_iff.1
  · exact InPackage.congr (fun p => (h.mem_packageNames p).symm) fun d => h.types.mem_iff.2

lemma typeEntity_eq (d : Declaration) :
    typeEntity n known (packageOf known d.typeName)
        (memberNames (Extraction.memberEntities n s) d.typeName) 0 d =
      typeEntity n known' (packageOf known' d.typeName)
        (memberNames (Extraction.memberEntities n s') d.typeName) 0 d := by
  have hget := h.get?_eq ht ht'
  have hqualify : qualify known = qualify known' := by
    funext package name
    rw [qualify, qualify, Table.has, Table.has, Table.has, Table.has, hget, hget]
  have hinterface : qualifyInterface known = qualifyInterface known' := by
    funext package name
    rw [qualifyInterface, qualifyInterface, hqualify]
  have hmembers : memberNames (Extraction.memberEntities n s) d.typeName =
      memberNames (Extraction.memberEntities n s') d.typeName := by
    rw [memberNames, memberNames, h.memberEntities]
  rw [typeEntity, typeEntity, packageOf, packageOf, hget, hqualify, hinterface, hmembers]

/-- The models of reordered declarations are alike. -/
lemma alike_modelOf (hs : s.Fits) (hs' : s'.Fits) :
    (modelOf n s known).Alike (modelOf n s' known') where
  entities := by
    have hmembers : (Extraction.memberEntities n s).Perm (Extraction.memberEntities n s') :=
      perm_of_filter_eq h.memberEntities
    calc (entitiesOf n s known).map Entity.unnumbered
      _ ~ ((placedOf n s known).map (·.2)).map Entity.unnumbered := (entitiesOf_perm ht hs).map _
      _ ~ ((placedOf n s' known').map (·.2)).map Entity.unnumbered := by
        rw [unnumbered_placedOf, unnumbered_placedOf]
        simp only [h.typeEntity_eq ht ht']
        exact ((h.packages.map _).append (h.types.map _)).append (hmembers.map _)
      _ ~ (entitiesOf n s' known').map Entity.unnumbered := (entitiesOf_perm ht' hs').symm.map _
  membersIn := by
    intro scope
    rw [membersIn_modelOf ht hs, membersIn_modelOf ht' hs', h.memberEntities]

end Sorted.Reordered

/-! ### Unsorted declarations -/

/-- The same declarations in another order, with the members of each type in one order. -/
structure Reordered (ds ds' : List Declaration) : Prop where
  perm : ds.Perm ds'
  members : ∀ t ∈ typesOf ds, (membersOf ds).filter (·.scope = t.typeName) =
    (membersOf ds').filter (·.scope = t.typeName)

variable {limit : Visibility} {ds ds' : List Declaration}

namespace Reordered

variable (h : Reordered ds ds')

include h

lemma hidden (n : Text) : Hidden limit (typesOf ds) n ↔ Hidden limit (typesOf ds') n := by
  have htypes : typesOf ds ~ typesOf ds' := h.perm.filter _
  exact ⟨Hidden.congr fun _ => htypes.mem_iff.1, Hidden.congr fun _ => htypes.mem_iff.2⟩

lemma keptTypes_perm : keptTypes limit ds ~ keptTypes limit ds' := by
  rw [keptTypes, keptTypes]
  simp only [h.hidden]
  exact (h.perm.filter _).filter _

lemma keptMembers_perm : keptMembers limit ds ~ keptMembers limit ds' := by
  rw [keptMembers, keptMembers]
  simp only [h.hidden]
  exact (h.perm.filter _).filter _

/-- If members lie in types, the kept members of each scope stay in their order. -/
lemma filter_keptMembers
    (hscopes : ∀ d ∈ keptMembers limit ds, ∃ t ∈ keptTypes limit ds, t.typeName = d.scope)
    (scope : Text) : (keptMembers limit ds).filter (·.scope = scope) =
      (keptMembers limit ds').filter (·.scope = scope) := by
  by_cases hscope : ∃ t ∈ typesOf ds, t.typeName = scope
  · obtain ⟨t, ht, rfl⟩ := hscope
    rw [keptMembers, keptMembers, List.filter_comm, List.filter_comm _ _ (membersOf ds'),
      h.members t ht]
    simp only [h.hidden]
  · have hnone : (keptMembers limit ds).filter (·.scope = scope) = [] := by
      rw [List.filter_eq_nil_iff]
      intro d hd heq
      obtain ⟨t, ht, hname⟩ := hscopes d hd
      exact hscope ⟨t, (List.mem_filter.1 ht).1, hname.trans (of_decide_eq_true heq)⟩
    have hperm : (keptMembers limit ds).filter (·.scope = scope) ~
        (keptMembers limit ds').filter (·.scope = scope) := h.keptMembers_perm.filter _
    rw [hnone] at hperm ⊢
    exact hperm.nil_eq

/-- What is kept of reordered declarations is reordered, if members lie in types. -/
lemma kept (hscopes : ∀ d ∈ keptMembers limit ds, ∃ t ∈ keptTypes limit ds, t.typeName = d.scope) :
    (kept limit ds).Reordered (Extraction.kept limit ds') where
  packages := h.perm.filter _
  types := h.keptTypes_perm
  members := h.filter_keptMembers hscopes

/-- Whether declarations are acceptable does not depend on their order. -/
lemma extractable (hex : Extractable limit ds) : Extractable limit ds' where
  kinds := fun d hd => hex.kinds d (h.perm.mem_iff.2 hd)
  fits := (h.kept hex.fits.scopes).fits hex.fits

end Reordered

/-- Reordered declarations have alike models. -/
theorem extract_reordered (h : Reordered ds ds') (hex : Extractable limit ds) (n : Nat) :
    ∃ x x', extract n limit ds = .ok x ∧ extract n limit ds' = .ok x' ∧
      x.model.Consistent ∧ x'.model.Consistent ∧ x.model.Alike x'.model := by
  have hex' := h.extractable hex
  obtain ⟨known, ht, hok⟩ := extract_ok hex n
  obtain ⟨known', ht', hok'⟩ := extract_ok hex' n
  refine ⟨_, _, hok, hok', ?_, ?_, ?_⟩
  · exact consistent_modelOf ht hex.fits (name_ne_nil_of_mem_keptTypes hex.kinds)
  · exact consistent_modelOf ht' hex'.fits (name_ne_nil_of_mem_keptTypes hex'.kinds)
  · exact (h.kept hex.fits.scopes).alike_modelOf ht ht' hex.fits hex'.fits

end Extraction

end ApiDocs
