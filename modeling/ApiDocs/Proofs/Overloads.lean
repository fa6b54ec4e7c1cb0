import ApiDocs.Proofs.ParameterLists
import ApiDocs.Proofs.Resolving
import ApiDocs.Proofs.WellFormed

/-!
# Overloads

Written out with its parameter types, a reference to a constructor or method finds it among the
members of its type, or another of the same name whose parameter list matches as well.
-/

namespace ApiDocs

open Text

/-! ### Names begin with a package -/

namespace Name

lemma scope_isPrefix_ofType {scope : Text} (h : scope ≠ []) (name : Text) :
    scope <+: ofType scope name := by
  simp [ofType, h]

end Name

namespace Extraction

lemma scope_isPrefix_memberQualifiedName (d : Declaration) : d.scope <+: memberQualifiedName d := by
  rw [memberQualifiedName]
  split
  · simp [Name.ofField]
  · simp [Name.ofCallable, Name.ofField]

/-- The name of a type begins with that of its package. -/
lemma InPackage.isPrefix {packages : List Text} {types : List Declaration} {n p : Text}
    (h : InPackage packages types n p) (hne : p ≠ []) : p <+: n := by
  induction h with
  | direct _ _ => exact Name.scope_isPrefix_ofType hne _
  | @nested d p _ _ _ ih =>
    have hscope := ih hne
    have hnonempty : d.scope ≠ [] := by
      rintro hnil
      rw [hnil, List.prefix_nil] at hscope
      exact hne hscope
    exact hscope.trans (Name.scope_isPrefix_ofType hnonempty _)

lemma isPrefix_of_mem_namesIn {limit : Visibility} {ds : List Declaration} {p n : Text}
    (hne : p ≠ []) (h : n ∈ namesIn limit ds p) : p <+: n := by
  simp only [namesIn, List.cons_append, List.mem_cons, List.mem_append, List.mem_map,
    List.mem_filter, decide_eq_true_eq] at h
  rcases h with rfl | ⟨d, ⟨-, hd⟩, rfl⟩ | ⟨d, ⟨-, hd⟩, rfl⟩
  · exact List.prefix_refl _
  · exact hd.isPrefix hne
  · exact (hd.isPrefix hne).trans (scope_isPrefix_memberQualifiedName d)

/-- Every name of an extracted model begins with the name of one of its packages. -/
lemma exists_package_isPrefix {n : Nat} {limit : Visibility} {ds : List Declaration} {x : Extracted}
    (h : extract n limit ds = .ok x) {name : Text} (hname : name ∈ x.model.names) :
    ∃ p ∈ x.model.entities, p.kind = .package ∧ p.qualifiedName ≠ [] ∧
      p.qualifiedName <+: name := by
  have hw := extract_wellFormed h
  rw [names_eq_flatMap hw] at hname
  obtain ⟨d, hd, hname⟩ := List.mem_flatMap.1 hname
  have hne : d.name ≠ [] := by
    obtain ⟨hd, hkind⟩ := List.mem_filter.1 hd
    obtain ⟨k, hk, hnamed⟩ := (extractable_of_extract h).kinds d hd
    apply hnamed
    rintro rfl
    simp [hk] at hkind
  have hkey : (Kind.package, d.name) ∈ x.model.entities.map fun e => (e.kind, e.qualifiedName) := by
    rw [hw.keys]
    exact List.mem_flatMap.2 ⟨d, hd, by simp⟩
  obtain ⟨p, hp, heq⟩ := List.mem_map.1 hkey
  obtain ⟨hkind, hqualified⟩ := Prod.mk.inj heq
  exact ⟨p, hp, hkind, hqualified ▸ hne, hqualified ▸ isPrefix_of_mem_namesIn hne hname⟩

lemma ne_nil_of_mem_names {n : Nat} {limit : Visibility} {ds : List Declaration} {x : Extracted}
    (h : extract n limit ds = .ok x) {name : Text} (hname : name ∈ x.model.names) : name ≠ [] := by
  obtain ⟨p, -, -, hne, rest, rfl⟩ := exists_package_isPrefix h hname
  simp [hne]

/-- Where no package name begins with a number sign, no name of the model does. -/
lemma ne_sign_of_mem_names {n : Nat} {limit : Visibility} {ds : List Declaration} {x : Extracted}
    (h : extract n limit ds = .ok x)
    (hpackages : ∀ p ∈ x.model.entities, p.kind = .package →
      p.qualifiedName.head? ≠ some (.char '#')) {name : Text} (hname : name ∈ x.model.names) :
    name.head? ≠ some (.char '#') := by
  obtain ⟨p, hp, hkind, hne, rest, rfl⟩ := exists_package_isPrefix h hname
  rw [List.head?_append_of_ne_nil _ hne]
  exact hpackages p hp hkind

end Extraction

/-! ### The member that a parameter list selects -/

namespace Model

variable {m : Model}

section

variable (h : m.Consistent)

include h

/-- Where some member of a type matches, a matching member of the type is selected. -/
lemma exists_matchIn {type name : Text} {parameters : Option (List Text)} {e : Entity}
    (he : e ∈ m.membersOf type) (hmatches : memberMatches name parameters e = true) :
    ∃ found ∈ m.membersOf type, memberMatches name parameters found = true ∧
      m.matchIn type name parameters = .ok (some found.qualifiedName) := by
  obtain ⟨found, hfound⟩ : ∃ found, m.selected? type name parameters = some found := by
    rw [← Option.ne_none_iff_exists']
    exact fun hnone => selected?_eq_none_iff.1 hnone e he hmatches
  obtain ⟨hmem, hmatch⟩ := mem_of_selected? hfound
  exact ⟨found, hmem, hmatch, by rw [matchIn_eq h, hfound]; rfl⟩

/-- A type encloses itself and its members. -/
lemma enclosingType?_eq {t : TypeEntity} (ht : t ∈ m.types) {owner : Entity}
    (howner : owner = t.entity ∨ owner ∈ m.membersOf t.qualifiedName) :
    m.enclosingType? owner = some t := by
  rw [enclosingType?]
  rcases howner with rfl | howner
  · rw [asType?_eq_some_iff.2 ⟨rfl, (mem_types_iff.1 ht).2⟩]
  · rw [h.membersOf_eq ht] at howner
    obtain ⟨-, hmember⟩ := List.mem_filter.1 howner
    simp only [Bool.and_eq_true, decide_eq_true_eq] at hmember
    have hnone : owner.asType? = none := by
      rw [Entity.asType?, Entity.typeInfo?]
      cases hcategory : owner.category with
      | type info => simp [Entity.kind, hcategory, Kind.isMember] at hmember
      | package => rfl
      | member k => rfl
    rw [hnone, hmember.2]
    exact h.findType?_of_mem ht

end

/-- A reference to a member of the enclosing type is looked up there first. -/
lemma lookup_eq_of_matchIn {owner : Entity} {t : TypeEntity}
    (howner : m.enclosingType? owner = some t) {text name found : Text}
    {parameters : Option (List Text)} (hsign : text.head? = some (.char '#'))
    (hparts : Name.MemberReference.ofText text = ⟨[], name, parameters⟩) (hname : name ≠ [])
    (hfound : m.matchIn t.qualifiedName name parameters = .ok (some found)) :
    m.lookup owner text = .ok (some found) := by
  have hfirst : m.lookupMember (some t) name parameters = .ok (some found) := by
    rw [lookupMember, if_neg hname, lineage, firstMatch, hfound]
    rfl
  rw [lookup]
  simp [hparts, hsign, howner, hfirst]

end Model

/-! ### Overloads that are written out -/

open Name

/-- A constructor or method of an extracted type can be referred to from the type and from its
members by its name and its written parameters. The reference links to a constructor or method of
the type with the name and a matching parameter list: to the member itself if it is the only one. -/
theorem resolve_written {n : Nat} {limit : Visibility} {ds : List Declaration} {x : Extracted}
    (h : extract n limit ds = .ok x)
    (hpackages : ∀ p ∈ x.model.entities, p.kind = .package →
      p.qualifiedName.head? ≠ some (.char '#'))
    {t : TypeEntity} (ht : t ∈ x.model.types) {e : Entity}
    (he : e ∈ x.model.membersOf t.qualifiedName) (hcallable : e.isField = false)
    (hname : e.name ≠ []) (htrim : trim e.name = e.name) (hparen : .char '(' ∉ e.name)
    (htypes : ∀ type ∈ e.parameterTypes,
      normalize type ≠ [] ∧ isBalanced 0 (normalize type) = true)
    {ps : List Text} (hps : List.Forall₂ Written e.parameterTypes ps) {owner : Entity}
    (howner : owner = t.entity ∨ owner ∈ x.model.membersOf t.qualifiedName) :
    ∃ found ∈ x.model.membersOf t.qualifiedName, found.isField = false ∧ found.name = e.name ∧
      parametersMatch found.parameterTypes e.parameterTypes = true ∧
      x.model.resolve owner (written e.name ps) = .ok (.link found.qualifiedName) ∧
      ((∀ o ∈ x.model.membersOf t.qualifiedName, o.isField = false → o.name = e.name →
        parametersMatch o.parameterTypes e.parameterTypes = true → o = e) → found = e) := by
  have hc : x.model.Consistent := consistent_of_extract h
  have hmatches (o : Entity) :
      Model.memberMatches e.name (some (e.parameterTypes.map normalize)) o = true ↔
        o.name = e.name ∧ o.isField = false ∧
          parametersMatch o.parameterTypes e.parameterTypes = true := by
    simp [Model.memberMatches, parametersMatch_map_normalize]
  have hself : parametersMatch e.parameterTypes e.parameterTypes = true :=
    parametersMatch_iff.2 rfl
  obtain ⟨found, hfound, hmatch, hselected⟩ :=
    Model.exists_matchIn hc he ((hmatches e).2 ⟨rfl, hcallable, hself⟩)
  obtain ⟨hsame, hfield, hparameters⟩ := (hmatches found).1 hmatch
  refine ⟨found, hfound, hfield, hsame, hparameters, ?_, fun honly => honly found hfound hfield
    hsame hparameters⟩
  have hsign : (written e.name ps).head? = some (.char '#') := by rw [written_eq, List.head?_cons]
  have hparts := ofText_written hparen hps htypes
  rw [htrim] at hparts
  have hlookup := Model.lookup_eq_of_matchIn (Model.enclosingType?_eq hc ht howner) hsign hparts
    hname hselected
  have hnew : x.model.has (written e.name ps) = false := by
    rw [Bool.eq_false_iff, ne_eq, Model.has_iff_mem_names]
    intro hmem
    exact Extraction.ne_sign_of_mem_names h hpackages hmem hsign
  have hnonempty : found.qualifiedName ≠ [] :=
    Extraction.ne_nil_of_mem_names h
      (Model.mem_names (Model.mem_entities_of_mem_membersOf hfound))
  rw [Model.resolve]
  simp only [trim_written, hnew, hlookup, ok_bind, if_neg hnonempty]
  rfl

/-- Declarations of a type with a field and two methods of one name. -/
def overloaded : List Declaration :=
  [ { kind := "package", name := "p" },
    { kind := "class", name := "Store", scope := "p" },
    { kind := "field", name := "put", scope := "p.Store" },
    { kind := "method", name := "put", scope := "p.Store",
      parameters := some [⟨"key", "java.lang.String"⟩] },
    { kind := "method", name := "put", scope := "p.Store",
      parameters := some [⟨"entries", "Map<String, int[]>"⟩, ⟨"more", "java.lang.String ..."⟩] } ]

/-- The second method is the only one of its name with its parameter types. -/
lemma exists_overload :
    ∃ x, extract 0 .declaring overloaded = .ok x ∧
      (∀ p ∈ x.model.entities, p.kind = .package → p.qualifiedName.head? ≠ some (.char '#')) ∧
      ∃ t ∈ x.model.types, ∃ owner ∈ x.model.membersOf t.qualifiedName,
        ∃ e ∈ x.model.membersOf t.qualifiedName, owner.isField = true ∧ e.isField = false ∧
          e.name = "put" ∧
          e.parameterTypes = (["Map<String, int[]>", "java.lang.String ..."] : List Text) ∧
          e.qualifiedName = "p.Store#put(Map<String,int[]>,java.lang.String...)" ∧
          ∀ o ∈ x.model.membersOf t.qualifiedName, o.isField = false → o.name = e.name →
            parametersMatch o.parameterTypes e.parameterTypes = true → o = e := by
  refine ⟨_, rfl, ?_, ?_⟩
  · decide
  · decide +kernel

theorem resolve_written_overloaded :
    ∃ x t e owner, extract 0 .declaring overloaded = .ok x ∧ t ∈ x.model.types ∧
      e ∈ x.model.membersOf t.qualifiedName ∧ owner ∈ x.model.membersOf t.qualifiedName ∧
      owner.isField = true ∧
      x.model.resolve owner "#put(Map<String,int[]> all,java.lang.String...)" =
        .ok (.link e.qualifiedName) ∧
      e.qualifiedName = "p.Store#put(Map<String,int[]>,java.lang.String...)" := by
  obtain ⟨x, hx, hpackages, t, ht, owner, howner, e, he, hfield, hcallable, hname, htypes,
    hqualified, honly⟩ := exists_overload
  have hall : ParameterName "all" := by
    constructor <;> decide
  have hnamed : Written "Map<String, int[]>" "Map<String,int[]> all" :=
    @Written.named "Map<String, int[]>" " " "all" (by decide) (by decide) hall
  have hps : List.Forall₂ Written e.parameterTypes
      ["Map<String,int[]> all", "java.lang.String..."] := by
    rw [htypes]
    exact .cons hnamed (.cons .bare .nil)
  obtain ⟨found, -, -, -, -, hresolve, hself⟩ := resolve_written hx hpackages ht he hcallable
    (by rw [hname]; decide) (by rw [hname]; decide) (by rw [hname]; decide)
    (by rw [htypes]; decide) hps (.inr howner)
  rw [hself honly, hname] at hresolve
  exact ⟨x, t, e, owner, hx, ht, he, howner, hfield, hresolve, hqualified⟩

end ApiDocs
