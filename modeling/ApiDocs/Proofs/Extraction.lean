import ApiDocs.Proofs.Nesting
import ApiDocs.Proofs.Partition
import ApiDocs.Proofs.Sorting

/-!
# What extraction accepts and what it yields

Extraction yields a model exactly if the kept declarations fit together: kinds and names are given,
types lie in packages, members in types, and qualified names are distinct. In every other case a
declaration is blamed. No look-up on the way fails.

The model then holds the entities package by package, and its tables say of its types just what the
declarations say.
-/

namespace ApiDocs

namespace Extraction

/-! ### Checks on names and scopes -/

lemma checkDistinct_ok {earlier names : List Text} (h : names.Nodup)
    (hearlier : ∀ n ∈ names, n ∉ earlier) : checkDistinct earlier names = .ok () := by
  induction names generalizing earlier with
  | nil => rfl
  | cons n names ih =>
    obtain ⟨hn, hnames⟩ := List.nodup_cons.1 h
    rw [checkDistinct, if_neg (hearlier n (List.mem_cons_self ..))]
    refine ih hnames fun m hm => List.not_mem_cons_of_ne_of_not_mem ?_
      (hearlier m (List.mem_cons_of_mem _ hm))
    rintro rfl
    exact hn hm

lemma checkDistinct_error {earlier names : List Text}
    (h : ¬ (names.Nodup ∧ ∀ n ∈ names, n ∉ earlier)) :
    ∃ n, checkDistinct earlier names = .error (.duplicate n) := by
  induction names generalizing earlier with
  | nil => simp at h
  | cons n names ih =>
    by_cases hn : n ∈ earlier
    · exact ⟨n, by rw [checkDistinct, if_pos hn]⟩
    · rw [checkDistinct, if_neg hn]
      refine ih fun ⟨hnames, hfresh⟩ => h ⟨List.nodup_cons.2 ⟨fun hm => ?_, hnames⟩, ?_⟩
      · exact List.ne_of_not_mem_cons (hfresh n hm) rfl
      · intro m hm
        rcases List.mem_cons.1 hm with rfl | hm
        · exact hn
        · exact List.not_mem_of_not_mem_cons (hfresh m hm)

lemma checkScopes_ok {known : Table Text} {members : List Declaration}
    (h : ∀ d ∈ members, d.scope ∈ known.keys) : checkScopes known members = .ok () := by
  induction members with
  | nil => rfl
  | cons d members ih =>
    rw [checkScopes, if_pos ((Table.has_iff_mem_keys _ _).2 (h d (List.mem_cons_self ..)))]
    exact ih fun e he => h e (List.mem_cons_of_mem _ he)

lemma checkScopes_error {known : Table Text} {members : List Declaration}
    (h : ¬ ∀ d ∈ members, d.scope ∈ known.keys) :
    ∃ name flaw, checkScopes known members = .error (.malformed name flaw) := by
  induction members with
  | nil => simp at h
  | cons d members ih =>
    rw [checkScopes]
    split
    · rename_i hd
      refine ih fun hall => h (List.forall_mem_cons.2 ⟨(Table.has_iff_mem_keys _ _).1 hd, hall⟩)
    · exact ⟨_, _, rfl⟩

/-! ### Entities of declarations -/

@[simp] lemma qualifiedName_memberEntity (n i : Nat) (d : Declaration) :
    (memberEntity n i d).qualifiedName = memberQualifiedName d := rfl

lemma owner_of_mem_referencesAt {place : Nat → Site} {owner : Text}
    (hplace : ∀ i, (place i).owner = owner) {ms : List Comment.Mention} {r : Reference}
    (hr : r ∈ referencesAt place ms) : r.site.owner = owner := by
  obtain ⟨i, hi, rfl⟩ := List.mem_mapIdx.1 hr
  exact hplace i

lemma owner_of_mem_tagEntity {site : Place → Site} {owner : Text}
    (hsite : ∀ p, (site p).owner = owner) {k : Nat} {t : Declaration.Tag} {r : Reference}
    (hr : r ∈ (tagEntity site k t).references) : r.site.owner = owner := by
  rw [Tag.references, List.mem_append] at hr
  rcases hr with hr | hr
  · obtain ⟨mention, -, rfl⟩ := Option.map_eq_some_iff.1 (Option.mem_toList.1 hr)
    exact hsite _
  · exact owner_of_mem_referencesAt (fun i => hsite (.tagText k i)) hr

/-- The references in a documentation are owned by the entity that it belongs to. -/
lemma owner_of_mem_documentation {n : Nat} {name : Text} {d : Declaration} {e : Entity}
    {r : Reference} (hr : r ∈ (documentation n name d e).references) : r.site.owner = name := by
  rw [documentation] at hr
  generalize Comment.splitFirstSentence d.comment = texts at hr
  obtain ⟨summary, body⟩ := texts
  rcases List.mem_append.1 hr with hr | hr
  · refine owner_of_mem_referencesAt ?_ hr
    intro i
    rfl
  · obtain ⟨t, ht, hr⟩ := List.mem_flatMap.1 hr
    obtain ⟨k, hk, rfl⟩ := List.mem_mapIdx.1 ht
    refine owner_of_mem_tagEntity ?_ hr
    intro p
    rfl

lemma map_mapIdx_eq {α β γ : Type} {f : Nat → α → β} {g : β → γ} {h : α → γ}
    (hfg : ∀ i a, g (f i a) = h a) (as : List α) : (as.mapIdx f).map g = as.map h := by
  refine List.ext_getElem? fun i => ?_
  rw [List.getElem?_map, List.getElem?_mapIdx, List.getElem?_map, Option.map_map]
  cases as[i]? <;> simp [hfg]

/-- Numbering declarations changes neither them nor their order. -/
lemma map_snd_numbered (before ds : List Declaration) : (numbered before ds).map (·.2) = ds := by
  induction ds generalizing before with
  | nil => rfl
  | cons d ds ih => rw [numbered, List.map_cons, ih]

lemma map_numbered {α : Type} (f : Declaration → α) (before ds : List Declaration) :
    (numbered before ds).map (fun nd => f nd.2) = ds.map f := by
  conv_rhs => rw [← map_snd_numbered before ds, List.map_map]
  rfl

lemma exists_of_mem_numbered {before ds : List Declaration} {nd : Nat × Declaration}
    (h : nd ∈ numbered before ds) : nd.2 ∈ ds := by
  rw [← map_snd_numbered before ds]
  exact List.mem_map.2 ⟨nd, h, rfl⟩

lemma exists_mem_numbered (before : List Declaration) {ds : List Declaration} {d : Declaration}
    (h : d ∈ ds) :
    ∃ i, (i, d) ∈ numbered before ds := by
  rw [← map_snd_numbered before ds] at h
  obtain ⟨⟨i, d⟩, hmem, rfl⟩ := List.mem_map.1 h
  exact ⟨i, hmem⟩

lemma le_of_mem_numbered {before ds : List Declaration} {nd : Nat × Declaration}
    (h : nd ∈ numbered before ds) : countInScope nd.2.scope before ≤ nd.1 := by
  induction ds generalizing before with
  | nil => cases h
  | cons d ds ih =>
    rw [numbered, List.mem_cons] at h
    rcases h with rfl | h
    · exact Nat.le_refl _
    · refine Nat.le_trans ?_ (ih h)
      rw [countInScope, countInScope, List.countP_append]
      exact Nat.le_add_right ..

/-- In a scope, later declarations have larger numbers. -/
lemma numbered_pairwise (before ds : List Declaration) :
    (numbered before ds).Pairwise fun a b => a.2.scope = b.2.scope → a.1 < b.1 := by
  induction ds generalizing before with
  | nil => exact .nil
  | cons d ds ih =>
    rw [numbered, List.pairwise_cons]
    refine ⟨fun nd hnd hscope => ?_, ih _⟩
    have hle := le_of_mem_numbered hnd
    rw [← hscope, countInScope, List.countP_append] at hle
    simp only [List.countP_singleton, decide_true, if_true] at hle
    exact Nat.lt_of_succ_le hle

/-! ### The entities with their packages -/

/-- The package of a type; empty for other names. -/
def packageOf (known : Table Text) (type : Text) : Text := (known.get? type).getD []

def typeOf (n : Nat) (s : Sorted) (known : Table Text) (nd : Nat × Declaration) : Entity :=
  typeEntity n known (packageOf known nd.2.typeName)
    (memberNames (memberEntities n s) nd.2.typeName) nd.1 nd.2

/-- The entities of sorted declarations with the package of each. -/
def placedOf (n : Nat) (s : Sorted) (known : Table Text) : List (Text × Entity) :=
  (s.packages.mapIdx fun i d => (d.name, packageEntity n i d)) ++
    (numbered [] s.types).map (fun nd => (packageOf known nd.2.typeName, typeOf n s known nd)) ++
    (memberEntities n s).map fun e => (packageOf known e.scope, e)

lemma require_of_mem {known : Table Text} {k : Text} (h : k ∈ known.keys) :
    require known k = .ok (packageOf known k) := by
  obtain ⟨v, hv⟩ := Table.exists_of_mem_keys h
  rw [require, packageOf, hv]
  rfl

lemma scope_of_mem_memberEntities {n : Nat} {s : Sorted} {e : Entity}
    (h : e ∈ memberEntities n s) : ∃ d ∈ s.members, d.scope = e.scope := by
  obtain ⟨nd, hnd, rfl⟩ := List.mem_map.1 h
  exact ⟨nd.2, exists_of_mem_numbered hnd, rfl⟩

/-- Where the table of packages knows the types and the scopes of members, every entity is
placed. -/
lemma placedEntities_ok {n : Nat} {s : Sorted} {known : Table Text}
    (hkeys : known.keys = s.types.map (·.typeName))
    (hscopes : ∀ d ∈ s.members, d.scope ∈ known.keys) :
    placedEntities n s known = .ok (placedOf n s known) := by
  have htypes : (numbered [] s.types).mapM (placedType n known (memberEntities n s)) =
      .ok ((numbered [] s.types).map fun nd =>
        (packageOf known nd.2.typeName, typeOf n s known nd)) := by
    refine mapM_ok fun nd hnd => ?_
    have hmem : nd.2.typeName ∈ known.keys :=
      hkeys ▸ List.mem_map.2 ⟨nd.2, exists_of_mem_numbered hnd, rfl⟩
    rw [placedType, require_of_mem hmem]
    rfl
  have hmembers : (memberEntities n s).mapM (placedMember known) =
      .ok ((memberEntities n s).map fun e => (packageOf known e.scope, e)) := by
    refine mapM_ok fun e he => ?_
    obtain ⟨d, hd, hscope⟩ := scope_of_mem_memberEntities he
    rw [placedMember, require_of_mem (hscope ▸ hscopes d hd)]
    rfl
  rw [placedEntities]
  simp only [htypes, hmembers, ok_bind]
  rfl

def Sorted.names (s : Sorted) : List Text :=
  s.packages.map (·.name) ++ s.types.map (·.typeName) ++ s.members.map memberQualifiedName

lemma names_memberEntities (n : Nat) (s : Sorted) :
    (memberEntities n s).map (·.qualifiedName) = s.members.map memberQualifiedName := by
  rw [memberEntities, List.map_map]
  exact map_numbered memberQualifiedName _ _

lemma names_placedOf (n : Nat) (s : Sorted) (known : Table Text) :
    (placedOf n s known).map (·.2.qualifiedName) = s.names := by
  rw [placedOf, List.map_append, List.map_append, List.map_map, List.map_map, Sorted.names,
    ← names_memberEntities n s, ← map_numbered Declaration.typeName [] s.types]
  congr 2
  exact map_mapIdx_eq (fun _ _ => by rfl) _

/-! ### Which declarations fit together -/

def Sorted.packageNames (s : Sorted) : List Text := s.packages.map (·.name)

/-- Types lie in packages, members in types, and names are distinct. -/
structure Sorted.Fits (s : Sorted) : Prop where
  nesting : ∀ d ∈ s.types, ∃ p, InPackage s.packageNames s.types d.typeName p
  scopes : ∀ d ∈ s.members, ∃ t ∈ s.types, t.typeName = d.scope
  distinct : s.names.Nodup

/-- A table of the packages of the types. -/
structure PackageTable (s : Sorted) (known : Table Text) : Prop where
  keys : known.keys = s.types.map (·.typeName)
  get? : ∀ n p, known.get? n = some p ↔ InPackage s.packageNames s.types n p

lemma Sorted.Fits.typeNames_nodup {s : Sorted} (h : s.Fits) : (s.types.map (·.typeName)).Nodup :=
  (List.nodup_append.1 (List.nodup_append.1 h.distinct).1).2.1

lemma Sorted.Fits.packageNames_nodup {s : Sorted} (h : s.Fits) : s.packageNames.Nodup :=
  (List.nodup_append.1 (List.nodup_append.1 h.distinct).1).1

lemma Sorted.Fits.exists_table {s : Sorted} (h : s.Fits) (hnames : ∀ d ∈ s.types, d.name ≠ []) :
    ∃ known, typePackages s.packageNames s.types = .ok known ∧ PackageTable s known := by
  obtain ⟨known, hok, hkeys, hget⟩ := typePackages_ok h.typeNames_nodup hnames h.nesting
  exact ⟨known, hok, hkeys, hget⟩

lemma PackageTable.packageOf_eq {s : Sorted} {known : Table Text} (h : PackageTable s known)
    {n p : Text} (hp : InPackage s.packageNames s.types n p) : packageOf known n = p := by
  rw [packageOf, (h.get? n p).2 hp]
  rfl

lemma PackageTable.inPackage {s : Sorted} {known : Table Text} (h : PackageTable s known)
    {n : Text} (hn : n ∈ known.keys) :
    InPackage s.packageNames s.types n (packageOf known n) := by
  obtain ⟨p, hp⟩ := Table.exists_of_mem_keys hn
  rw [h.packageOf_eq ((h.get? n p).1 hp)]
  exact (h.get? n p).1 hp

lemma PackageTable.mem_keys_of_type {s : Sorted} {known : Table Text} (h : PackageTable s known)
    {d : Declaration} (hd : d ∈ s.types) : d.typeName ∈ known.keys :=
  h.keys ▸ List.mem_map.2 ⟨d, hd, rfl⟩

lemma PackageTable.mem_keys_of_scope {s : Sorted} {known : Table Text} (h : PackageTable s known)
    (hs : ∀ d ∈ s.members, ∃ t ∈ s.types, t.typeName = d.scope) :
    ∀ d ∈ s.members, d.scope ∈ known.keys := by
  intro d hd
  obtain ⟨t, ht, heq⟩ := hs d hd
  exact heq ▸ h.mem_keys_of_type ht

/-- Every entity is placed in a package of the model. -/
lemma mem_packageNames_of_mem_placedOf {n : Nat} {s : Sorted} {known : Table Text}
    (h : PackageTable s known) (hscopes : ∀ d ∈ s.members, d.scope ∈ known.keys) :
    ∀ q ∈ placedOf n s known, q.1 ∈ s.packageNames := by
  intro q hq
  rw [placedOf, List.mem_append, List.mem_append] at hq
  rcases hq with (hq | hq) | hq
  · obtain ⟨i, hi, rfl⟩ := List.mem_mapIdx.1 hq
    exact List.mem_map.2 ⟨_, List.getElem_mem hi, rfl⟩
  · obtain ⟨nd, hnd, rfl⟩ := List.mem_map.1 hq
    exact (h.inPackage (h.mem_keys_of_type (exists_of_mem_numbered hnd))).mem_packages
  · obtain ⟨e, he, rfl⟩ := List.mem_map.1 hq
    obtain ⟨d, hd, hscope⟩ := scope_of_mem_memberEntities he
    exact (h.inPackage (hscope ▸ hscopes d hd)).mem_packages

/-! ### The model of sorted declarations -/

/-- The entities of sorted declarations, package by package. -/
def entitiesOf (n : Nat) (s : Sorted) (known : Table Text) : List Entity :=
  s.packageNames.flatMap fun p => placedIn p (placedOf n s known)

/-- The model of sorted declarations, given the packages of types. -/
def modelOf (n : Nat) (s : Sorted) (known : Table Text) : Model :=
  (Model.ofEntities (entitiesOf n s known)).indexAncestors.indexPackages

/-- With distinct names of types, what is left of extraction are the checks of the scopes and the
merging of the partitions. -/
lemma ofSorted_eq {s : Sorted} (h : (s.types.map (·.typeName)).Nodup) (n : Nat) :
    Model.ofSorted n s = do
      let known ← typePackages s.packageNames s.types
      checkScopes known s.members
      let placed ← placedEntities n s known
      let m ← mergePlaced s.packageNames placed
      return m.indexAncestors.indexPackages := by
  rw [Model.ofSorted, checkDistinct_ok h fun _ _ => List.not_mem_nil, ok_bind]
  simp only [mergePlaced, bind_assoc, Sorted.packageNames]

/-- Declarations that fit together make up a model. -/
theorem ofSorted_ok {s : Sorted} (hnames : ∀ d ∈ s.types, d.name ≠ []) (h : s.Fits) (n : Nat) :
    ∃ known, PackageTable s known ∧ Model.ofSorted n s = .ok (modelOf n s known) := by
  obtain ⟨known, hknown, ht⟩ := h.exists_table hnames
  have hscopes := ht.mem_keys_of_scope h.scopes
  refine ⟨known, ht, ?_⟩
  have hmerged : mergePlaced s.packageNames (placedOf n s known) =
      .ok (.ofEntities (entitiesOf n s known)) :=
    mergePlaced_ok h.packageNames_nodup (mem_packageNames_of_mem_placedOf ht hscopes)
      (by rw [names_placedOf]; exact h.distinct)
  rw [ofSorted_eq h.typeNames_nodup, hknown, ok_bind, checkScopes_ok hscopes, ok_bind,
    placedEntities_ok ht.keys hscopes, ok_bind, hmerged]
  rfl

/-- Of declarations that do not fit together one is blamed. -/
theorem ofSorted_error {s : Sorted} (hnames : ∀ d ∈ s.types, d.name ≠ []) (h : ¬ s.Fits) (n : Nat) :
    ∃ f, Model.ofSorted n s = .error f ∧ f.BlamesInput := by
  by_cases hdistinct : (s.types.map (·.typeName)).Nodup
  swap
  · have ⟨m, hm⟩ : ∃ m, checkDistinct [] (s.types.map (·.typeName)) = .error (.duplicate m) :=
      checkDistinct_error fun hc => hdistinct hc.1
    exact ⟨_, by rw [Model.ofSorted, hm, error_bind], .inr ⟨m, rfl⟩⟩
  rw [ofSorted_eq hdistinct]
  by_cases hnesting : ∀ d ∈ s.types, ∃ p, InPackage s.packageNames s.types d.typeName p
  swap
  · obtain ⟨d, -, herr⟩ := typePackages_error hdistinct hnames hnesting
    exact ⟨_, by rw [herr, error_bind], .inl ⟨_, _, rfl⟩⟩
  obtain ⟨known, hknown, hkeys, hget⟩ := typePackages_ok hdistinct hnames hnesting
  by_cases hscopes : ∀ d ∈ s.members, d.scope ∈ known.keys
  swap
  · obtain ⟨name, flaw, herr⟩ := checkScopes_error hscopes
    exact ⟨_, by rw [hknown, ok_bind, herr, error_bind], .inl ⟨name, flaw, rfl⟩⟩
  have ht : PackageTable s known := ⟨hkeys, hget⟩
  have hnames' : ¬ s.names.Nodup := fun hnodup => h
    { nesting := hnesting
      scopes := fun d hd => List.mem_map.1 (hkeys ▸ hscopes d hd)
      distinct := hnodup }
  obtain ⟨m, herr⟩ := mergePlaced_error (mem_packageNames_of_mem_placedOf (n := n) ht hscopes)
    (by rwa [names_placedOf])
  refine ⟨_, ?_, .inr ⟨m, rfl⟩⟩
  rw [hknown, ok_bind, checkScopes_ok hscopes, ok_bind, placedEntities_ok ht.keys hscopes, ok_bind,
    herr, error_bind]

/-! ### The outcome of extraction -/

/-- What extraction accepts at a limit of visibility: every declaration has a known kind and, unless
it is a constructor, a name; every kept type lies in a package and every kept member in a kept type;
and the qualified names of the packages and of the kept types and members are distinct. -/
structure Extractable (limit : Visibility) (ds : List Declaration) : Prop where
  kinds : ∀ d ∈ ds, d.WellNamed
  fits : (kept limit ds).Fits

end Extraction

open Extraction

lemma extract_eq {limit : Visibility} {ds : List Declaration} (h : ∀ d ∈ ds, d.WellNamed)
    (n : Nat) :
    extract n limit ds = (fun m => ⟨m, (kept limit ds).packages.length,
      (kept limit ds).types.length⟩) <$> Model.ofSorted n (kept limit ds) := by
  rw [extract, ofDeclarations_ok h, ok_bind, Sorted.extract, restrict_sorted]
  cases Model.ofSorted n (kept limit ds) <;> rfl

/-- Extraction of acceptable declarations gives the model of what is kept. -/
theorem extract_ok {limit : Visibility} {ds : List Declaration} (h : Extractable limit ds)
    (n : Nat) :
    ∃ known, PackageTable (kept limit ds) known ∧ extract n limit ds =
      .ok ⟨modelOf n (kept limit ds) known, (packagesOf ds).length,
        (keptTypes limit ds).length⟩ := by
  obtain ⟨known, ht, hok⟩ := ofSorted_ok (name_ne_nil_of_mem_keptTypes h.kinds) h.fits n
  exact ⟨known, ht, by rw [extract_eq h.kinds, hok]; rfl⟩

/-- Extraction of other declarations blames one of them. -/
theorem extract_error {limit : Visibility} {ds : List Declaration} (h : ¬ Extractable limit ds)
    (n : Nat) : ∃ f, extract n limit ds = .error f ∧ f.BlamesInput := by
  by_cases hkinds : ∀ d ∈ ds, d.WellNamed
  · obtain ⟨f, hf, hblame⟩ :=
      ofSorted_error (s := kept limit ds) (name_ne_nil_of_mem_keptTypes hkinds)
      (fun hfits => h ⟨hkinds, hfits⟩) n
    exact ⟨f, by rw [extract_eq hkinds, hf]; rfl, hblame⟩
  · obtain ⟨name, flaw, herr⟩ := ofDeclarations_error hkinds
    exact ⟨_, by rw [extract, herr, error_bind], .inl ⟨name, flaw, rfl⟩⟩

/-- What could be extracted was acceptable. -/
lemma extractable_of_extract {n : Nat} {limit : Visibility} {ds : List Declaration} {x : Extracted}
    (h : extract n limit ds = .ok x) : Extractable limit ds := by
  by_contra hno
  obtain ⟨f, hf, -⟩ := extract_error hno n
  rw [hf] at h
  cases h

/-- What could be extracted is the model of what is kept, and what is kept fits together. -/
lemma exists_table_of_extract {n : Nat} {limit : Visibility} {ds : List Declaration}
    {x : Extracted} (h : extract n limit ds = .ok x) :
    ∃ known, PackageTable (kept limit ds) known ∧ (kept limit ds).Fits ∧
      x = ⟨modelOf n (kept limit ds) known, (packagesOf ds).length,
        (keptTypes limit ds).length⟩ := by
  have hextractable := extractable_of_extract h
  obtain ⟨known, ht, hok⟩ := extract_ok hextractable n
  rw [h] at hok
  exact ⟨known, ht, hextractable.fits, Except.ok.inj hok⟩

/-- Extraction succeeds on exactly the acceptable declarations; on all others it fails by blaming a
declaration, and never because a look-up fails. -/
theorem extract_succeeds_iff_extractable (n : Nat) (limit : Visibility) (ds : List Declaration) :
    ((∃ x, extract n limit ds = .ok x) ↔ Extractable limit ds) ∧
      ((∃ f, extract n limit ds = .error f ∧ f.BlamesInput) ↔ ¬ Extractable limit ds) := by
  by_cases h : Extractable limit ds
  · obtain ⟨known, -, hok⟩ := extract_ok h n
    exact ⟨iff_of_true ⟨_, hok⟩ h,
      iff_of_false (fun ⟨f, hf, _⟩ => by simp [hok] at hf) (not_not.2 h)⟩
  · obtain ⟨f, hf, hblame⟩ := extract_error h n
    exact ⟨iff_of_false (fun ⟨x, hx⟩ => by simp [hf] at hx) h, iff_of_true ⟨f, hf, hblame⟩ h⟩

end ApiDocs
