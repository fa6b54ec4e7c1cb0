import ApiDocs.Proofs.AlikeViews
import ApiDocs.Proofs.Retexted

/-!
# A member with another comment

Declarations are extracted alike whatever their comments are. With another comment for one member,
the model has other texts for the entity of the member, and is the same apart from that. So the
documentation that the member inherits is the same, and only what it is merged with is another.
-/

namespace ApiDocs

def Declaration.withComment (d : Declaration) (comment : Text) : Declaration := { d with comment }

namespace Extraction

/-! ### The entity of the member -/

section

variable (n : Nat) (name comment : Text)

/-- The entity of a name with the texts of another comment; other entities stay as they are. -/
def recomment (e : Entity) : Entity :=
  if e.qualifiedName = name then
    { e with
      summary := (Comment.splitFirstSentence comment).1
      body := (Comment.splitFirstSentence comment).2
      links := referencesAt (fun i => Site.mk n name (.text i))
        (Comment.mentions (Comment.splitFirstSentence comment).1 ++
          Comment.mentions (Comment.splitFirstSentence comment).2) }
  else e

lemma recomment_of_ne {e : Entity} (h : e.qualifiedName ≠ name) :
    recomment n name comment e = e := if_neg h

lemma textsOnly_recomment : TextsOnly (recomment n name comment) := by
  intro e
  rw [recomment]
  split <;> rfl

end

/-- The declaration of a member with another comment, if it has a qualified name. -/
def recommentNamed (name comment : Text) (d : Declaration) : Declaration :=
  if memberQualifiedName d = name then d.withComment comment else d

section

variable (name comment : Text)

lemma scope_recommentNamed (d : Declaration) : (recommentNamed name comment d).scope = d.scope := by
  rw [recommentNamed]
  split <;> rfl

lemma memberQualifiedName_recommentNamed (d : Declaration) :
    memberQualifiedName (recommentNamed name comment d) = memberQualifiedName d := by
  rw [recommentNamed]
  split <;> rfl

lemma memberEntity_recommentNamed (n i : Nat) (d : Declaration) :
    memberEntity n i (recommentNamed name comment d) =
      recomment n name comment (memberEntity n i d) := by
  by_cases h : memberQualifiedName d = name
  · subst h
    rw [recommentNamed, if_pos rfl, recomment, qualifiedName_memberEntity, if_pos rfl]
    rfl
  · rw [recommentNamed, if_neg h, recomment_of_ne n name comment h]

end

/-- Declarations are numbered by their scopes alone. -/
lemma numbered_map {f : Declaration → Declaration} (hf : ∀ d, (f d).scope = d.scope)
    {before before' : List Declaration}
    (hbefore : ∀ scope, countInScope scope before' = countInScope scope before)
    (ds : List Declaration) :
    numbered before' (ds.map f) = (numbered before ds).map fun nd => (nd.1, f nd.2) := by
  induction ds generalizing before before' with
  | nil => rfl
  | cons d ds ih =>
    have hnext : ∀ scope,
        countInScope scope (before' ++ [f d]) = countInScope scope (before ++ [d]) := by
      intro scope
      have h := hbefore scope
      rw [countInScope, countInScope] at h ⊢
      rw [List.countP_append, List.countP_append, h, List.countP_singleton, List.countP_singleton,
        hf]
    rw [List.map_cons, numbered, numbered, List.map_cons, ih hnext, hf, hbefore]

/-! ### Sorted declarations -/

/-- Sorted declarations where the member of a name has another comment. -/
def Sorted.recomment (s : Sorted) (name comment : Text) : Sorted :=
  { s with members := s.members.map (recommentNamed name comment) }

variable {s : Sorted} {name : Text} (comment : Text)

lemma Sorted.names_recomment : (s.recomment name comment).names = s.names := by
  have hmembers : (s.members.map (recommentNamed name comment)).map memberQualifiedName =
      s.members.map memberQualifiedName := by
    rw [List.map_map]
    apply List.map_congr_left
    intro d _
    rw [Function.comp_apply, memberQualifiedName_recommentNamed]
  simp only [names, recomment, hmembers]

lemma Sorted.Fits.recomment (h : s.Fits) : (s.recomment name comment).Fits where
  nesting := h.nesting
  scopes := by
    intro d hd
    obtain ⟨d', hd', rfl⟩ := List.mem_map.1 hd
    rw [scope_recommentNamed]
    exact h.scopes d' hd'
  distinct := by
    rw [names_recomment]
    exact h.distinct

lemma PackageTable.recomment {known : Table Text} (h : PackageTable s known) :
    PackageTable (s.recomment name comment) known := ⟨h.keys, h.get?⟩

lemma memberEntities_recomment (n : Nat) : memberEntities n (s.recomment name comment) =
    (memberEntities n s).map (recomment n name comment) := by
  have hnumbered : numbered s.types (s.members.map (recommentNamed name comment)) =
      (numbered s.types s.members).map fun nd => (nd.1, recommentNamed name comment nd.2) :=
    numbered_map (scope_recommentNamed name comment) (fun _ => rfl) _
  rw [memberEntities, memberEntities, Sorted.recomment, hnumbered, List.map_map, List.map_map]
  apply List.map_congr_left
  intro nd _
  exact memberEntity_recommentNamed name comment n nd.1 nd.2

section

variable (hpackages : ∀ d ∈ s.packages, d.name ≠ name) (htypes : ∀ d ∈ s.types, d.typeName ≠ name)

include hpackages htypes

/-- Entities are placed as before. -/
lemma placedOf_recomment (n : Nat) (known : Table Text) :
    placedOf n (s.recomment name comment) known =
      (placedOf n s known).map (Prod.map id (recomment n name comment)) := by
  have hnames (scope : Text) : memberNames (memberEntities n (s.recomment name comment)) scope =
      memberNames (memberEntities n s) scope := by
    have hf := textsOnly_recomment n name comment
    have hscope : (fun e : Entity => decide (e.scope = scope)) ∘ recomment n name comment =
        fun e => decide (e.scope = scope) :=
      funext fun e => hf.eq (fun e => decide (e.scope = scope)) (fun _ => rfl) e
    rw [memberEntities_recomment, memberNames, memberNames, List.filter_map, List.map_map, hscope]
    exact List.map_congr_left fun e _ => hf.qualifiedName e
  have hpackageEntities : (s.packages.mapIdx fun i d => (d.name, packageEntity n i d)).map
      (Prod.map id (recomment n name comment)) =
        s.packages.mapIdx fun i d => (d.name, packageEntity n i d) := by
    refine (List.map_congr_left fun q hq => ?_).trans (List.map_id _)
    obtain ⟨i, hi, rfl⟩ := List.mem_mapIdx.1 hq
    exact congrArg _ (recomment_of_ne n name comment (hpackages _ (List.getElem_mem hi)))
  have htypeEntities : ((numbered [] s.types).map fun nd =>
      (packageOf known nd.2.typeName, typeOf n s known nd)).map
        (Prod.map id (recomment n name comment)) =
      (numbered [] s.types).map fun nd =>
        (packageOf known nd.2.typeName, typeOf n (s.recomment name comment) known nd) := by
    rw [List.map_map]
    apply List.map_congr_left
    intro nd hnd
    have htype : typeOf n (s.recomment name comment) known nd = typeOf n s known nd := by
      rw [typeOf, typeOf, hnames]
    rw [htype]
    exact congrArg _ (recomment_of_ne n name comment (htypes _ (exists_of_mem_numbered hnd)))
  have hmemberEntities : ((memberEntities n s).map fun e => (packageOf known e.scope, e)).map
      (Prod.map id (recomment n name comment)) =
        (memberEntities n (s.recomment name comment)).map
          fun e => (packageOf known e.scope, e) := by
    rw [memberEntities_recomment, List.map_map, List.map_map]
    apply List.map_congr_left
    intro e _
    have hscope : (recomment n name comment e).scope = e.scope :=
      (textsOnly_recomment n name comment).eq (·.scope) (fun _ => rfl) e
    simp only [Function.comp_apply, Prod.map_apply, id, hscope]
  rw [placedOf, placedOf, List.map_append, List.map_append, hpackageEntities, htypeEntities,
    hmemberEntities]
  rfl

/-- The model has other texts for the entity of the member. -/
lemma modelOf_recomment (n : Nat) (known : Table Text) :
    modelOf n (s.recomment name comment) known =
      (modelOf n s known).mapEntities (recomment n name comment) := by
  have hentities : entitiesOf n (s.recomment name comment) known =
      (entitiesOf n s known).map (recomment n name comment) := by
    rw [entitiesOf, entitiesOf, List.map_flatMap]
    apply List.flatMap_congr
    intro p _
    rw [placedOf_recomment comment hpackages htypes, placedIn, placedIn, List.filter_map,
      List.map_map, List.map_map]
    rfl
  rw [modelOf, modelOf, hentities]
  exact (Model.ofEntities (entitiesOf n s known)).indexed_mapEntities
    (textsOnly_recomment n name comment)

end

/-! ### Declarations -/

lemma kind_of_mem_keptMembers {limit : Visibility} {ds : List Declaration} {d : Declaration}
    (hd : d ∈ keptMembers limit ds) : ∃ k, Kind.ofDeclared? d.kind = some (.member k) := by
  have hmember := (List.mem_filter.1 (List.mem_filter.1 hd).1).2
  cases hkind : Kind.ofDeclared? d.kind with
  | none => simp [hkind] at hmember
  | some k =>
    rw [hkind] at hmember
    cases k with
    | package => cases hmember
    | type => cases hmember
    | member k => exact ⟨k, rfl⟩

lemma membersOf_append (ds ds' : List Declaration) :
    membersOf (ds ++ ds') = membersOf ds ++ membersOf ds' := List.filter_append ..

lemma membersOf_cons {d : Declaration} {k : MemberKind}
    (h : Kind.ofDeclared? d.kind = some (.member k)) (ds : List Declaration) :
    membersOf (d :: ds) = d :: membersOf ds := by
  rw [membersOf, List.filter_cons_of_pos (by rw [h]; rfl)]
  rfl

lemma recommentNamed_of_nodup {before after : List Declaration} {d : Declaration}
    (h : ((before ++ d :: after).map memberQualifiedName).Nodup) :
    (before ++ d :: after).map (recommentNamed (memberQualifiedName d) comment) =
      before ++ d.withComment comment :: after := by
  rw [List.map_append, List.map_cons, List.nodup_append, List.nodup_cons] at h
  have hother {ds : List Declaration}
      (hds : ∀ d' ∈ ds, memberQualifiedName d' ≠ memberQualifiedName d) :
      ds.map (recommentNamed (memberQualifiedName d) comment) = ds :=
    (List.map_congr_left fun d' hd' => if_neg (hds d' hd')).trans (List.map_id _)
  rw [List.map_append, List.map_cons, recommentNamed, if_pos rfl, hother, hother]
  · intro d' hd' heq
    exact h.2.1.1 (heq ▸ List.mem_map_of_mem hd')
  · intro d' hd'
    exact h.2.2 _ (List.mem_map_of_mem hd') _ (List.mem_cons_self ..)

/-- With another comment for one kept member, the same declarations are kept. -/
lemma kept_withComment {limit : Visibility} {before after : List Declaration} {d : Declaration}
    (hd : d ∈ keptMembers limit (before ++ d :: after))
    (hdistinct : ((keptMembers limit (before ++ d :: after)).map memberQualifiedName).Nodup) :
    kept limit (before ++ d.withComment comment :: after) =
      (kept limit (before ++ d :: after)).recomment (memberQualifiedName d) comment := by
  obtain ⟨k, hkind⟩ := kind_of_mem_keptMembers hd
  have hkind' : Kind.ofDeclared? (d.withComment comment).kind = some (.member k) := hkind
  have hpackages : packagesOf (before ++ d.withComment comment :: after) =
      packagesOf (before ++ d :: after) := by
    simp [packagesOf, List.filter_append, hkind, hkind']
  have htypes : typesOf (before ++ d.withComment comment :: after) =
      typesOf (before ++ d :: after) := by
    simp [typesOf, List.filter_append, hkind, hkind']
  let stays (d' : Declaration) : Bool :=
    ¬ Hidden limit (typesOf (before ++ d :: after)) d'.scope ∧ d'.visibility.rank ≤ limit.rank
  have hmembers {d' : Declaration} (hkind : Kind.ofDeclared? d'.kind = some (.member k))
      (hstays : stays d' = true) : (membersOf (before ++ d' :: after)).filter stays =
        (membersOf before).filter stays ++ d' :: (membersOf after).filter stays := by
    rw [membersOf_append, membersOf_cons hkind, List.filter_append, List.filter_cons_of_pos hstays]
  have hstays : stays d = true := (List.mem_filter.1 hd).2
  have hkept : keptMembers limit (before ++ d :: after) =
      (membersOf before).filter stays ++ d :: (membersOf after).filter stays :=
    hmembers hkind hstays
  have hkept' : keptMembers limit (before ++ d.withComment comment :: after) =
      (membersOf before).filter stays ++
        d.withComment comment :: (membersOf after).filter stays := by
    rw [keptMembers, htypes]
    exact hmembers hkind' hstays
  rw [hkept] at hdistinct
  rw [kept, kept, Sorted.recomment, hpackages, keptTypes, htypes, hkept', hkept,
    recommentNamed_of_nodup comment hdistinct]
  rfl

/-- The packages of types make up one table. -/
lemma PackageTable.unique {known known' : Table Text} (h : PackageTable s known)
    (h' : PackageTable s known') (hdistinct : (s.types.map (·.typeName)).Nodup) :
    known' = known := by
  apply Table.eq_of_get?_eq (h.keys.symm ▸ hdistinct) (h'.keys.trans h.keys.symm)
  intro n
  ext p
  rw [h'.get?, h.get?]

lemma Extractable.withComment {limit : Visibility} {before after : List Declaration}
    {d : Declaration} (h : Extractable limit (before ++ d :: after))
    (hd : d ∈ keptMembers limit (before ++ d :: after)) :
    Extractable limit (before ++ d.withComment comment :: after) where
  kinds := by
    intro d' hd'
    rcases List.mem_append.1 hd' with hd' | hd'
    · exact h.kinds d' (List.mem_append_left _ hd')
    · rcases List.mem_cons.1 hd' with rfl | hd'
      · exact h.kinds d (by simp)
      · exact h.kinds d' (List.mem_append_right _ (List.mem_cons_of_mem _ hd'))
  fits := by
    rw [kept_withComment comment hd (List.nodup_append.1 h.fits.distinct).2.1]
    exact h.fits.recomment comment

/-- A field or method of the model is declared by a kept member. -/
lemma exists_mem_keptMembers {n : Nat} {limit : Visibility} {ds : List Declaration}
    {x : Extracted} (h : extract n limit ds = .ok x) {e : Entity} (he : e ∈ x.model.entities)
    (hkind : (e.isField || e.isMethod) = true) :
    ∃ d ∈ keptMembers limit ds, memberQualifiedName d = e.qualifiedName := by
  obtain ⟨known, ht, hfits, rfl⟩ := exists_table_of_extract h
  rcases (mem_entitiesOf ht hfits).1 he with ⟨i, hi, rfl⟩ | ⟨nd, hnd, rfl⟩ | he
  · cases hkind
  · cases hkind
  · obtain ⟨nd, hnd, rfl⟩ := List.mem_map.1 he
    exact ⟨nd.2, exists_of_mem_numbered hnd, rfl⟩

end Extraction

open Extraction

/-- With another comment for one kept member, extraction yields the model with other texts for the
entity of that member, and the same model apart from that. -/
theorem extract_withComment {n : Nat} {limit : Visibility} {before after : List Declaration}
    {d : Declaration} {x : Extracted} (h : extract n limit (before ++ d :: after) = .ok x)
    (hd : d ∈ keptMembers limit (before ++ d :: after)) (comment : Text) :
    ∃ y, extract n limit (before ++ d.withComment comment :: after) = .ok y ∧
      y.model = x.model.mapEntities (recomment n (memberQualifiedName d) comment) := by
  have hextractable := extractable_of_extract h
  have hfits := hextractable.fits
  obtain ⟨known, ht, hok⟩ := extract_ok hextractable n
  obtain ⟨known', ht', hok'⟩ := extract_ok (hextractable.withComment comment hd) n
  rw [h] at hok
  cases hok
  have hname : memberQualifiedName d ∈ (kept limit (before ++ d :: after)).members.map
      memberQualifiedName := List.mem_map_of_mem hd
  have hdistinct := List.nodup_append.1 hfits.distinct
  rw [kept_withComment comment hd hdistinct.2.1] at ht' hok'
  rw [(ht.recomment comment).unique ht' hfits.typeNames_nodup] at hok'
  refine ⟨_, hok', modelOf_recomment comment ?_ ?_ n known⟩
  · intro p hp
    exact hdistinct.2.2 _ (List.mem_append_left _ (List.mem_map_of_mem hp)) _ hname
  · intro t htype
    exact hdistinct.2.2 _ (List.mem_append_right _ (List.mem_map_of_mem htype)) _ hname

/-- With another comment for a member, the member shows the text of that comment, merged with the
documentation of the members that it overrides as it was before. -/
theorem doc_withComment {n : Nat} {limit : Visibility} {before after : List Declaration}
    {d : Declaration} {x : Extracted} (h : extract n limit (before ++ d :: after) = .ok x)
    (ha : x.model.Acyclic) (hd : d ∈ keptMembers limit (before ++ d :: after)) {e : Entity}
    (he : e ∈ x.model.entities) (hname : memberQualifiedName d = e.qualifiedName)
    (comment : Text) :
    ∃ y v, extract n limit (before ++ d.withComment comment :: after) = .ok y ∧
      y.model.view true = .ok v ∧
      v.doc e.qualifiedName = mergeDoc (recomment n e.qualifiedName comment e)
        ((x.model.overridden e).map fun o => (o, x.model.fullDoc o)) := by
  obtain ⟨y, hy, hmodel⟩ := extract_withComment h hd comment
  have hc : x.model.Consistent := consistent_of_extract h
  have hc' : y.model.Consistent := consistent_of_extract hy
  refine ⟨y, y.model.viewOf true, hy, hc'.view_eq true, ?_⟩
  rw [hname] at hmodel
  rw [hmodel] at hc' ⊢
  have hf := textsOnly_recomment n e.qualifiedName comment
  have hmem : recomment n e.qualifiedName comment e ∈
      (x.model.mapEntities (recomment n e.qualifiedName comment)).entities :=
    List.mem_map_of_mem he
  have hdoc := Model.doc_viewOf_of_mem hc' (Model.acyclic_mapEntities hf ha) hmem
  rw [hf.qualifiedName] at hdoc
  rw [hdoc, Model.fullDoc_mapEntities hf hc ha hc']
  intro o ho hlower
  apply recomment_of_ne
  intro heq
  rw [List.inj_on_of_nodup_map hc.distinct ho he heq] at hlower
  exact Nat.lt_irrefl _ hlower

end ApiDocs
