import ApiDocs.Page.DataDocument
import ApiDocs.Proofs.Emission

/-!
# Names in the data document

Every entity of a consistent model can be written as a tree. The names that stand in the tree of a
view, read in order, are those that the view lists.
-/

namespace ApiDocs

namespace Json

def field? (name : Text) : Json → Option Json
  | object fields => fields.lookup name
  | _ => none

def itemsAt (name : Text) (v : Json) : List Json :=
  match v.field? name with
  | some (list items) => items
  | _ => []

end Json

namespace Page

/-! ### Reading names -/

def treeName (v : Json) : Option Text :=
  match v.field? "qualified_name" with
  | some (.text s) => some s
  | _ => none

def typeTreeNames (v : Json) : List (Option Text) :=
  treeName v :: (v.itemsAt "members").map treeName

def packageTreeNames (v : Json) : List (Option Text) :=
  treeName v :: (v.itemsAt "types").flatMap typeTreeNames

/-- The qualified names in a tree: packages, then their types, then the members of these. -/
def treeNames (v : Json) : List (Option Text) := (v.itemsAt "packages").flatMap packageTreeNames

/-! ### The fields of an entity -/

def entityFieldNames : List Text :=
  ["qualified_name", "kind", "name", "href", "summary", "body", "links", "tags", "deprecated",
    "inherited_from", "signature", "parameters", "type", "flavor", "supertype", "interfaces"]

def fieldNames (fields : Fields) : List Text := fields.map (·.1)

@[simp] lemma fieldNames_append (fields fields' : Fields) :
    fieldNames (fields ++ fields') = fieldNames fields ++ fieldNames fields' :=
  List.map_append

lemma fieldNames_textField (name value : Text) : fieldNames (textField name value) ⊆ [name] := by
  rw [textField]
  split
  · exact List.nil_subset _
  · exact List.Subset.refl _

lemma parameterFields_ok {e : Entity} (h : e.parameterNames.length = e.parameterTypes.length) :
    ∃ fields, parameterFields e = .ok fields ∧ fieldNames fields ⊆ ["parameters"] := by
  rw [parameterFields, parameterPairs, if_pos h]
  split
  · exact ⟨[], rfl, List.nil_subset _⟩
  · exact ⟨_, rfl, List.Subset.refl _⟩

lemma fieldNames_typeFields (e : Entity) :
    fieldNames (typeFields e) ⊆ ["flavor", "supertype", "interfaces"] := by
  rw [typeFields]
  split
  · exact List.nil_subset _
  · exact List.Subset.refl _

/-- An entity with as many names as types of parameters has its fields. -/
lemma entityFields_ok (s : Source) {e : Entity}
    (h : e.parameterNames.length = e.parameterTypes.length) :
    ∃ fields, entityFields s e = .ok fields ∧
      (Json.object fields).field? "qualified_name" = some (.text e.qualifiedName) ∧
      fieldNames fields ⊆ entityFieldNames := by
  obtain ⟨parameters, hok, hparameters⟩ := parameterFields_ok h
  rw [entityFields, hok, ok_bind]
  refine ⟨_, rfl, rfl, ?_⟩
  simp only [fieldNames_append, List.append_subset]
  refine ⟨⟨⟨⟨⟨?_, ?_⟩, ?_⟩, ?_⟩, ?_⟩, ?_⟩
  · exact List.take_subset 9 entityFieldNames
  · exact List.Subset.trans (fieldNames_textField _ _) (by decide)
  · exact List.Subset.trans (fieldNames_textField _ _) (by decide)
  · exact List.Subset.trans hparameters (by decide)
  · exact List.Subset.trans (fieldNames_textField _ _) (by decide)
  · exact List.Subset.trans (fieldNames_typeFields e) (by decide)

/-- A field that is added at the end is found if no other one has its name. -/
lemma field?_concat {fields : Fields} {name : Text} (h : name ∉ fieldNames fields) (v : Json) :
    (Json.object (fields.concat (name, v))).field? name = some v := by
  have hnone : fields.lookup name = none := (Table.get?_eq_none_iff ⟨fields⟩ name).2 h
  rw [Json.field?, List.concat_eq_append, List.lookup_append, hnone]
  simp

/-- A field that is there is found also if another one is added at the end. -/
lemma field?_concat_of_some {fields : Fields} {name name' : Text} {v v' : Json}
    (h : (Json.object fields).field? name = some v) :
    (Json.object (fields.concat (name', v'))).field? name = some v := by
  rw [Json.field?] at h ⊢
  rw [List.concat_eq_append, List.lookup_append, h]
  rfl

/-! ### The trees of entities -/

variable {s : Source}

/-- The tree of each name of a list whose names are found. -/
lemma mapM_found (hdistinct : s.model.names.Nodup) {β : Type} {names : List Text}
    (f : Entity → Except Failure Json) (read : Json → β) (k : Text → β)
    (h : ∀ n ∈ names, ∃ e ∈ s.model.entities, e.qualifiedName = n ∧
      ∃ v, f e = .ok v ∧ read v = k n) :
    ∃ vs, (names.filterMap s.model.find?).mapM f = .ok vs ∧ vs.map read = names.map k := by
  induction names with
  | nil => exact ⟨[], rfl, rfl⟩
  | cons n names ih =>
    obtain ⟨vs, hvs, hread⟩ := ih fun n hn => h n (List.mem_cons_of_mem _ hn)
    obtain ⟨e, he, rfl, v, hv, hk⟩ := h n (List.mem_cons_self ..)
    refine ⟨v :: vs, ?_, by rw [List.map_cons, hk, hread, List.map_cons]⟩
    rw [List.filterMap_cons, Model.find?_of_mem hdistinct he, List.mapM_cons, hv, hvs]
    rfl

lemma memberTree_ok {e : Entity} (h : e.parameterNames.length = e.parameterTypes.length) :
    ∃ v, memberTree s e = .ok v ∧ treeName v = some e.qualifiedName := by
  obtain ⟨fields, hok, hname, -⟩ := entityFields_ok s h
  rw [memberTree, hok, ok_bind]
  exact ⟨_, rfl, by rw [treeName, hname]⟩

/-- A type has a tree with its name and the names of its members. -/
lemma typeTree_ok (hs : s.model.Consistent) {e : Entity} (he : e ∈ s.model.entities)
    (hmembers : ∀ n ∈ s.view.membersOf e.qualifiedName, n ∈ s.model.names) :
    ∃ v, typeTree s e = .ok v ∧
      typeTreeNames v = (e.qualifiedName :: s.view.membersOf e.qualifiedName).map some := by
  obtain ⟨fields, hok, hname, hfields⟩ := entityFields_ok s (hs.parameters e he)
  obtain ⟨vs, hvs, hread⟩ := mapM_found hs.distinct (memberTree s) treeName some
    fun n hn => by
      obtain ⟨e', he', rfl⟩ := List.mem_map.1 (hmembers n hn)
      exact ⟨e', he', rfl, memberTree_ok (hs.parameters e' he')⟩
  rw [typeTree, hok, ok_bind, hvs, ok_bind]
  refine ⟨_, rfl, ?_⟩
  rw [typeTreeNames, treeName, field?_concat_of_some hname, Json.itemsAt,
    field?_concat (fun hn => absurd (hfields hn) (by decide)), List.map_cons, hread]

/-- A package has a tree with its name and the names of its types and their members. -/
lemma packageTree_ok (hs : s.model.Consistent) {e : Entity} (he : e ∈ s.model.entities)
    (htypes : ∀ t ∈ s.view.typesOf e.qualifiedName, t ∈ s.model.names ∧
      ∀ n ∈ s.view.membersOf t, n ∈ s.model.names) :
    ∃ v, packageTree s e = .ok v ∧ packageTreeNames v = (e.qualifiedName ::
      (s.view.typesOf e.qualifiedName).flatMap fun t => t :: s.view.membersOf t).map some := by
  obtain ⟨fields, hok, hname, hfields⟩ := entityFields_ok s (hs.parameters e he)
  obtain ⟨vs, hvs, hread⟩ := mapM_found hs.distinct (typeTree s) typeTreeNames
    (fun t => (t :: s.view.membersOf t).map some) fun t ht => by
      obtain ⟨hmem, hmembers⟩ := htypes t ht
      obtain ⟨e', he', rfl⟩ := List.mem_map.1 hmem
      exact ⟨e', he', rfl, typeTree_ok hs he' hmembers⟩
  rw [packageTree, hok, ok_bind, hvs, ok_bind]
  refine ⟨_, rfl, ?_⟩
  rw [packageTreeNames, treeName, field?_concat_of_some hname, Json.itemsAt,
    field?_concat (fun hn => absurd (hfields hn) (by decide)), List.map_cons, List.map_flatMap]
  simp only [List.flatMap_def, hread]

/-- Every view of names of a consistent model has a tree, and the names in it are those of the
view in the same order. -/
lemma tree_ok (hs : s.model.Consistent) (hnames : ∀ n ∈ s.view.sequence, n ∈ s.model.names) :
    ∃ v, tree s = .ok v ∧ treeNames v = s.view.sequence.map some := by
  have hnames' : ∀ p ∈ s.view.packages, p ∈ s.model.names ∧ ∀ t ∈ s.view.typesOf p,
      t ∈ s.model.names ∧ ∀ n ∈ s.view.membersOf t, n ∈ s.model.names := by
    simp only [View.sequence, List.mem_flatMap, List.mem_cons] at hnames
    exact fun p hp => ⟨hnames p ⟨p, hp, .inl rfl⟩, fun t ht =>
      ⟨hnames t ⟨p, hp, .inr ⟨t, ht, .inl rfl⟩⟩, fun n hn =>
        hnames n ⟨p, hp, .inr ⟨t, ht, .inr hn⟩⟩⟩⟩
  obtain ⟨vs, hvs, hread⟩ := mapM_found hs.distinct (packageTree s) packageTreeNames
    (fun p => (p :: (s.view.typesOf p).flatMap fun t => t :: s.view.membersOf t).map some)
    fun p hp => by
      obtain ⟨hmem, htypes⟩ := hnames' p hp
      obtain ⟨e, he, rfl⟩ := List.mem_map.1 hmem
      exact ⟨e, he, rfl, packageTree_ok hs he htypes⟩
  rw [tree, hvs, ok_bind]
  refine ⟨_, rfl, ?_⟩
  rw [treeNames, View.sequence, List.map_flatMap]
  simp only [List.flatMap_def]
  exact congrArg List.flatten hread

end Page

open Extraction

/-- A view of the model of declarations lists each name once: packages in ascending order, in each
its types in ascending order, and in each type constructors before fields before methods, those of
one kind in source order. -/
structure View.EmitsInOrder (limit : Visibility) (ds : List Declaration) (m : Model) (v : View) :
    Prop where
  complete : v.sequence.Perm m.names
  packages : v.packages.Pairwise (· < ·) ∧
    ∀ p, p ∈ v.packages ↔ ∃ e ∈ m.entities, e.kind = .package ∧ e.qualifiedName = p
  types : ∀ p ∈ v.packages, (v.typesOf p).Pairwise (· < ·) ∧
    ∀ n, n ∈ v.typesOf p ↔ ∃ t ∈ m.types, t.qualifiedName = n ∧ t.info.package = p
  members : ∀ t ∈ m.types, v.membersOf t.qualifiedName =
    [MemberKind.constructor, .field, .method].flatMap fun k =>
      ((keptMembers limit ds).filter fun d => d.scope = t.qualifiedName ∧ memberKind d = k).map
        memberQualifiedName

lemma Model.WellFormed.names_filter_kind {limit : Visibility} {ds : List Declaration} {m : Model}
    (h : m.WellFormed limit ds) (scope : Text) (k : MemberKind) :
    ((m.membersIn scope).filter (·.kind = .member k)).map (·.qualifiedName) =
      ((keptMembers limit ds).filter fun d => d.scope = scope ∧ memberKind d = k).map
        memberQualifiedName := by
  have hpairs := congrArg (fun es => (es.filter (·.1 = Kind.member k)).map (·.2)) (h.declared scope)
  simp only [List.filter_map, List.map_map, List.filter_filter] at hpairs
  refine hpairs.trans (congrArg (List.map _) (List.filter_congr fun d _ => ?_))
  simp [Bool.and_comm]

lemma Model.WellFormed.emitsInOrder {limit : Visibility} {ds : List Declaration} {m : Model}
    (h : m.WellFormed limit ds) (inherits : Bool) :
    (m.viewOf inherits).EmitsInOrder limit ds m where
  complete := h.sequence_perm inherits
  packages := ⟨h.packageNames_ascending, fun _ => Model.mem_packageNames⟩
  types := by
    intro p hp
    rw [h.typesOf_viewOf hp]
    refine ⟨sortNames_strict (Model.typeNamesIn_nodup h.distinct p), fun n => ?_⟩
    rw [mem_sortNames, Model.mem_typeNamesIn]
    exact exists_congr fun t => and_congr_right fun _ => and_comm
  members := by
    intro t ht
    rw [h.membersOf_viewOf ht, Model.emittedMembers, byKind, List.map_flatMap]
    simp only [Kind.emitted, List.flatMap_cons, List.flatMap_nil, h.names_filter_kind]

/-- The view of an extracted model lists everything once and in order, and the names in the tree
written from it stand in the order of the view. -/
theorem extract_emitsInOrder {n : Nat} {limit : Visibility} {ds : List Declaration} {x : Extracted}
    (h : extract n limit ds = .ok x) (inherits : Bool) :
    ∃ v, x.model.view inherits = .ok v ∧ v.EmitsInOrder limit ds x.model ∧
      ∀ linking language, ∃ j, Page.tree ⟨x.model, v, linking, language⟩ = .ok j ∧
        Page.treeNames j = v.sequence.map some := by
  obtain ⟨_, hx, hw⟩ := (extractable_of_extract h).exists_wellFormed n
  rw [h] at hx
  cases hx
  refine ⟨x.model.viewOf inherits, hw.view_eq inherits, hw.emitsInOrder inherits,
    fun linking language => ?_⟩
  exact Page.tree_ok (s := ⟨x.model, x.model.viewOf inherits, linking, language⟩) hw.toConsistent
    fun n hn => (hw.sequence_perm inherits).mem_iff.1 hn

theorem extract_emitsInOrder_shapes : ∃ x v, extract 0 .declaring shapes = .ok x ∧
    x.model.view true = .ok v ∧ v.EmitsInOrder .declaring shapes x.model := by
  have hx : extract 0 .declaring shapes = .ok _ := rfl
  obtain ⟨v, hv, horder, -⟩ := extract_emitsInOrder hx true
  exact ⟨_, v, hx, hv, horder⟩

end ApiDocs
