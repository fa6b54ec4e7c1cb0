import ApiDocs.Proofs.VisibilityLevels

/-!
# Types that clash

Types are left out by name, before names are compared. A type that clashes with one that is left out
is left out with it, and so are all types in a package whose name is that of a type that is left
out. Other visible types of packages are kept.
-/

namespace ApiDocs

open Extraction

namespace Extraction

variable {limit : Visibility} {types : List Declaration}

/-- Around a type that clashes with no other one, in a package that clashes with no type, there is
only the type itself. -/
lemma eq_of_around {d : Declaration} (hname : ∀ e ∈ types, e.typeName = d.typeName → e = d)
    (hscope : ∀ e ∈ types, e.typeName ≠ d.scope) {e : Declaration} (h : Around types d.typeName e) :
    e = d := by
  generalize hn : d.typeName = n at h
  cases h with
  | itself he => exact hname e he hn.symm
  | @outer inner e hinner houter =>
    obtain rfl := hname inner hinner hn.symm
    -- what is around the package has the name of the package
    generalize hs : inner.scope = s at houter
    cases houter with
    | itself he => exact absurd hs.symm (hscope _ he)
    | outer he _ => exact absurd hs.symm (hscope _ he)

/-- A kept type of a package is extracted, and its name is that of no other type. -/
lemma exists_type_of_kept {n : Nat} {ds : List Declaration} {x : Extracted}
    (h : extract n limit ds = .ok x) {d : Declaration} (hd : d ∈ keptTypes limit ds)
    (hscope : d.scope ∈ (packagesOf ds).map (·.name)) :
    ∃ t ∈ x.model.types, t.qualifiedName = d.typeName ∧ t.entity.name = d.name ∧
      t.entity.scope = d.scope ∧ t.info.package = d.scope := by
  obtain ⟨known, ht, hfits, rfl⟩ := exists_table_of_extract h
  obtain ⟨nd, hnd, rfl⟩ : ∃ nd ∈ numbered [] (keptTypes limit ds), nd.2 = d := by
    rwa [← List.mem_map, map_snd_numbered]
  have htype := (mem_types_modelOf (n := n) ht hfits).2 ⟨nd, hnd, rfl⟩
  exact ⟨_, htype, rfl, rfl, rfl, ht.packageOf_eq (.direct hd hscope)⟩

/-- A type is that of a kept declaration, whose kind in lower case is its flavor. -/
lemma exists_declaration_of_type {n : Nat} {ds : List Declaration} {x : Extracted}
    (h : extract n limit ds = .ok x) {t : TypeEntity} (ht : t ∈ x.model.types) :
    ∃ d ∈ keptTypes limit ds, t.qualifiedName = d.typeName ∧
      t.info.flavor = Text.lower d.kind := by
  obtain ⟨known, htable, hfits, rfl⟩ := exists_table_of_extract h
  obtain ⟨nd, hnd, htype⟩ := (mem_types_modelOf htable hfits).1 ht
  cases htype
  exact ⟨nd.2, exists_of_mem_numbered hnd, rfl, rfl⟩

lemma kept_of_mem_types {n : Nat} {ds : List Declaration} {x : Extracted}
    (h : extract n limit ds = .ok x) {t : TypeEntity} (ht : t ∈ x.model.types) :
    ∃ d ∈ keptTypes limit ds, t.qualifiedName = d.typeName := by
  obtain ⟨d, hd, hname, -⟩ := exists_declaration_of_type h ht
  exact ⟨d, hd, hname⟩

end Extraction

/-- A type declared in a package is extracted exactly if all types of its name are visible enough,
and all types around them. What is extracted under its name is then this type. So a visible type is
left out, without a failure, if one that it clashes with is hidden, or one that its package clashes
with; if there is no such clash it is extracted. -/
theorem type_extracted_iff {n : Nat} {limit : Visibility} {ds : List Declaration} {x : Extracted}
    (h : extract n limit ds = .ok x) {d : Declaration} (hd : d ∈ typesOf ds)
    (hscope : d.scope ∈ (packagesOf ds).map (·.name)) :
    ((∃ t ∈ x.model.types, t.qualifiedName = d.typeName) ↔
      ∀ e, Around (typesOf ds) d.typeName e → e.visibility.rank ≤ limit.rank) ∧
    (∀ t ∈ x.model.types, t.qualifiedName = d.typeName →
      t.entity.name = d.name ∧ t.entity.scope = d.scope ∧ t.info.package = d.scope) ∧
    (d.visibility.rank ≤ limit.rank →
      (∀ e ∈ typesOf ds, e.typeName = d.typeName → e = d) →
      (∀ e ∈ typesOf ds, e.typeName ≠ d.scope) →
      ∃ t ∈ x.model.types, t.qualifiedName = d.typeName) := by
  have hiff : (∃ t ∈ x.model.types, t.qualifiedName = d.typeName) ↔
      ∀ e, Around (typesOf ds) d.typeName e → e.visibility.rank ≤ limit.rank := by
    rw [← not_hidden_iff_around]
    constructor
    · rintro ⟨t, ht, hname⟩
      obtain ⟨d', hd', hname'⟩ := kept_of_mem_types h ht
      rw [← hname, hname']
      exact (mem_keptTypes.1 hd').2
    · intro hshown
      obtain ⟨t, ht, hname, -⟩ := exists_type_of_kept h (mem_keptTypes.2 ⟨hd, hshown⟩) hscope
      exact ⟨t, ht, hname⟩
  refine ⟨hiff, fun t ht hname => ?_, fun hvisible hunique hpackage => hiff.2 fun e he => ?_⟩
  · have hshown := not_hidden_iff_around.2 (hiff.1 ⟨t, ht, hname⟩)
    obtain ⟨t', ht', hname', hsame⟩ := exists_type_of_kept h (mem_keptTypes.2 ⟨hd, hshown⟩) hscope
    have hdistinct := Model.typeNames_nodup (consistent_of_extract h).distinct
    rwa [List.inj_on_of_nodup_map hdistinct ht ht' (hname.trans hname'.symm)]
  · rwa [eq_of_around hunique hpackage he]

/-- A type declared twice, once for everyone and once for no one, and a type beside it. -/
def clashingShapes : List Declaration :=
  [ { kind := "package", name := "shapes" },
    { kind := "class", name := "Grid", scope := "shapes", modifiers := ["public"] },
    { kind := "class", name := "Grid", scope := "shapes", modifiers := ["private"] },
    { kind := "class", name := "Shape", scope := "shapes", modifiers := ["public"] } ]

theorem type_extracted_clashingShapes :
    ∃ x, extract 0 .everywhere clashingShapes = .ok x ∧
      (∃ t ∈ x.model.types, t.qualifiedName = "shapes.Shape") ∧
      ¬ ∃ t ∈ x.model.types, t.qualifiedName = "shapes.Grid" := by
  obtain ⟨x, hx⟩ : ∃ x, extract 0 .everywhere clashingShapes = .ok x := ⟨_, rfl⟩
  have hgrid : clashingShapes[1] ∈ typesOf clashingShapes := by decide
  have hshape : clashingShapes[3] ∈ typesOf clashingShapes := by decide
  have haround : Around (typesOf clashingShapes) clashingShapes[1].typeName clashingShapes[2] :=
    .itself (d := clashingShapes[2]) (by decide)
  refine ⟨x, hx, (type_extracted_iff hx hshape (by decide)).2.2 (by decide) (by decide) (by decide),
    fun hgiven => ?_⟩
  exact absurd ((type_extracted_iff hx hgrid (by decide)).1.1 hgiven _ haround) (by decide)

/-- A type that is visible to everyone, in a declared package, is left out without a failure. -/
theorem visible_type_left_out :
    ∃ x, extract 0 .everywhere clashingShapes = .ok x ∧
      ∃ d ∈ typesOf clashingShapes, d.visibility = .everywhere ∧
        d.scope ∈ (packagesOf clashingShapes).map (·.name) ∧ d.typeName ∉ x.model.names := by
  refine ⟨_, rfl, clashingShapes[1], ?_⟩
  decide

end ApiDocs
