import ApiDocs.Proofs.ClashingTypes
import ApiDocs.Proofs.LetterCase
import ApiDocs.Proofs.PageAnchors

/-!
# Landing pages

A landing page has the types of its package under the titles of their flavors. A declaration says
the flavor of its type in the word that names its kind. Underscores and white space in it do not
matter where the kind is read, but they stay in the flavor: a type whose kind is written without
them stands once on the landing page of its package, and one whose kind is written with them on
none.
-/

namespace ApiDocs

/-- To put together the images of what a filter keeps is to put nothing in place of the others. -/
lemma flatMap_filter {α β : Type} (p : α → Bool) (f : α → List β) (as : List α) :
    (as.filter p).flatMap f = as.flatMap fun a => if p a then f a else [] := by
  induction as with
  | nil => rfl
  | cons a as ih =>
    rw [List.filter_cons, List.flatMap_cons, ← ih]
    split <;> rfl

/-! ### Words of kinds -/

namespace Kind

open Text

/-- A word without underscores and white space. -/
def Unbroken (word : Text) : Prop := ∀ c ∈ word, c ≠ '_' ∧ isBlank c = false

instance : DecidablePred Unbroken := fun word =>
  inferInstanceAs (Decidable (∀ c ∈ word, c ≠ '_' ∧ isBlank c = false))

/-- An unbroken word is read as it is written, but for its letter case. -/
lemma reduceWord_of_unbroken {word : Text} (h : Unbroken word) : reduceWord word = lower word := by
  have htrim : trim word = word := trim_eq_self (fun c hc => (h c (List.mem_of_mem_head? hc)).2)
    (fun c hc => (h c (List.mem_of_mem_getLast? hc)).2)
  rw [reduceWord, htrim, List.filter_eq_self]
  intro c hc
  rw [Bool.and_eq_true, bne_iff_ne, bne_iff_ne]
  constructor
  · rintro rfl
    exact (h _ (mem_of_mem_lowerFrom (.inl rfl) hc)).1 rfl
  · rintro rfl
    exact Bool.noConfusion (h _ (mem_of_mem_lowerFrom (.inr rfl) hc)).2

/-- The flavors of types, as they are read. -/
lemma reduceWord_mem_flavors {word : Text} (h : ofDeclared? word = some type) :
    reduceWord word ∈ Page.flavorTitles.map (·.1) := by
  have hwords : ∀ p ∈ words, p.2 = type → p.1 ∈ Page.flavorTitles.map (·.1) := by decide
  obtain ⟨before, after, hsplit, -⟩ := List.lookup_eq_some_iff.1 h
  exact hwords (reduceWord word, type) (hsplit ▸ by simp) rfl

lemma unbroken_of_lower_mem_flavors {word : Text} (h : lower word ∈ Page.flavorTitles.map (·.1)) :
    Unbroken word := by
  have hflavors : ∀ w ∈ Page.flavorTitles.map (·.1), Unbroken w := by decide
  intro c hc
  by_contra hbroken
  have hbreak : c = '_' ∨ isBlank c = true := by
    by_cases hunder : c = '_'
    · exact .inl hunder
    · exact .inr (by simpa [hunder] using hbroken)
  exact hbroken (hflavors _ h c (mem_lowerFrom hbreak hc))

/-- The word of a type in lower case is a flavor with a title exactly if it is unbroken. -/
lemma lower_mem_flavors_iff {word : Text} (h : ofDeclared? word = some type) :
    lower word ∈ Page.flavorTitles.map (·.1) ↔ Unbroken word := by
  refine ⟨unbroken_of_lower_mem_flavors, fun hword => ?_⟩
  rw [← reduceWord_of_unbroken hword]
  exact reduceWord_mem_flavors h

end Kind

/-! ### Sections of a landing page -/

namespace Page

/-- The titles of a landing page with the types under them; a title without types is left out. -/
def landingSections (s : Source) (package : Text) : List (Text × List TypeEntity) :=
  (flavorTitles.map fun f => (f.2, (typesOf s package).filter (·.info.flavor = f.1))).filter
    fun sec => ! sec.2.isEmpty

def sectionLines (s : Source) (sec : Text × List TypeEntity) : List Line :=
  [.heading 2 sec.1, blank] ++ sec.2.flatMap (typeEntry s)

section

variable {s : Source} {package : Text}

lemma landingPage_eq : landingPage s package =
    packageHead s package ++ (landingSections s package).flatMap (sectionLines s) := by
  rw [landingPage, landingSections, flatMap_filter, List.flatMap_map]
  refine congrArg _ (List.flatMap_congr fun f _ => ?_)
  rw [flavorLines]
  cases ((typesOf s package).filter (·.info.flavor = f.1)).isEmpty <;> rfl

lemma titles_landingSections_nodup : ((landingSections s package).map (·.1)).Nodup := by
  have htitles : (flavorTitles.map (·.2)).Nodup := by decide
  refine List.Nodup.sublist (List.filter_sublist.map _) ?_
  rwa [List.map_map]

lemma mem_landingSections {sec : Text × List TypeEntity} (h : sec ∈ landingSections s package) :
    ∃ f ∈ flavorTitles, sec.1 = f.2 ∧ ∀ t ∈ sec.2, t.info.flavor = f.1 := by
  obtain ⟨f, hf, rfl⟩ := List.mem_map.1 (List.mem_filter.1 h).1
  exact ⟨f, hf, rfl, fun t ht => of_decide_eq_true (List.mem_filter.1 ht).2⟩

/-- Under the titles stand the types whose flavor has a title. -/
lemma landingSections_perm : ((landingSections s package).flatMap (·.2)).Perm
    ((typesOf s package).filter fun t => t.info.flavor ∈ flavorTitles.map (·.1)) := by
  have hflavors : (flavorTitles.map (·.1)).Nodup := by decide
  have hgroups : (landingSections s package).flatMap (·.2) =
      (flavorTitles.map (·.1)).flatMap fun flavor =>
        (typesOf s package).filter (·.info.flavor = flavor) := by
    rw [landingSections, flatMap_filter, List.flatMap_map, List.flatMap_map]
    refine List.flatMap_congr fun f _ => ?_
    split
    · rfl
    · rename_i hempty
      rw [Bool.not_eq_true, Bool.not_eq_false', List.isEmpty_iff] at hempty
      exact hempty.symm
  rw [hgroups]
  exact perm_flatMap_filter_of_iff _ hflavors fun t _ => decide_eq_true_iff

end

/-! ### Types of extracted models -/

section

variable {m : Model} (h : m.Consistent) (inherits : Bool) (settings : Settings)
  (resolutions : Resolutions)

include h

lemma typesOf_source (package : Text) :
    typesOf (m.source (m.viewOf inherits) settings resolutions) package =
      m.typesInPackage package := by
  have hnames : (m.viewOf inherits).typesOf package =
      (m.typesInPackage package).map (·.qualifiedName) := by
    by_cases hpackage : package ∈ m.packageNames
    · rw [h.typesOf_viewOf hpackage, h.names_typesInPackage]
    · have hnone : m.typesInPackage package = [] := by
        rw [List.eq_nil_iff_forall_not_mem]
        intro t ht
        obtain ⟨hmem, rfl⟩ := h.mem_typesInPackage_iff.1 ht
        exact hpackage (Model.mem_packageNames.2 (h.packages t hmem))
      rw [hnone, View.typesOf, Model.viewOf, Table.get?_ofEntries_map _ h.packageNames_nodup,
        if_neg hpackage]
      rfl
  change ((m.viewOf inherits).typesOf package).filterMap m.findType? = _
  rw [hnames, List.filterMap_map]
  refine (List.filterMap_congr fun t ht => ?_).trans List.filterMap_some
  exact h.findType?_of_mem (h.mem_typesInPackage_iff.1 ht).1

/-- A type stands once among the sections of its package if its flavor has a title. -/
lemma count_landingSections {t : TypeEntity} (ht : t ∈ m.types) (package : Text) :
    ((landingSections (m.source (m.viewOf inherits) settings resolutions) package).flatMap
        (·.2)).count t =
      if t.info.package = package ∧ t.info.flavor ∈ flavorTitles.map (·.1) then 1 else 0 := by
  have hnodup : (m.typesInPackage package).Nodup :=
    .of_map TypeEntity.qualifiedName
      (nodup_of_ascending (List.pairwise_map.2 (h.typesInPackage_ascending package)))
  rw [landingSections_perm.count_eq, typesOf_source h, (hnodup.filter _).count]
  refine if_congr ?_ rfl rfl
  rw [List.mem_filter, h.mem_typesInPackage_iff, decide_eq_true_eq, and_iff_right ht]

end

end Page

open Extraction Page

/-- The landing page of a package is its head and, under each title once, the entries of types. Each
type of the model is that of a kept declaration. If the kind is written there without underscores
and white space, the type has one entry, on the landing page of its package, under the title of the
flavor that the kind is read as; otherwise it has no entry on any landing page. -/
theorem entries_of_landingPage {n : Nat} {limit : Visibility} {ds : List Declaration}
    {x : Extracted} (hx : extract n limit ds = .ok x) (inherits : Bool) (settings : Settings)
    (resolutions : Resolutions) :
    ∃ v, x.model.view inherits = .ok v ∧ ∀ package,
      let s := x.model.source v settings resolutions
      landingPage s package =
        packageHead s package ++ (landingSections s package).flatMap (sectionLines s) ∧
      ((landingSections s package).map (·.1)).Nodup ∧
      ∀ t ∈ x.model.types, ∃ d ∈ keptTypes limit ds, t.qualifiedName = d.typeName ∧
        ((landingSections s package).flatMap (·.2)).count t =
          (if t.info.package = package ∧ Kind.Unbroken d.kind then 1 else 0) ∧
        ∀ sec ∈ landingSections s package, t ∈ sec.2 →
          (Kind.reduceWord d.kind, sec.1) ∈ flavorTitles := by
  have hc := consistent_of_extract hx
  refine ⟨x.model.viewOf inherits, hc.view_eq inherits, fun package =>
    ⟨landingPage_eq, titles_landingSections_nodup, fun t ht => ?_⟩⟩
  obtain ⟨d, hd, hname, hflavor⟩ := exists_declaration_of_type hx ht
  have hkind := (mem_typesOf.1 (mem_keptTypes.1 hd).1).2
  refine ⟨d, hd, hname, ?_, fun sec hsec hin => ?_⟩
  · rw [count_landingSections hc inherits settings resolutions ht, hflavor]
    simp only [Kind.lower_mem_flavors_iff hkind]
  · obtain ⟨f, hf, htitle, hall⟩ := mem_landingSections hsec
    have hlower : Text.lower d.kind = f.1 := hflavor.symm.trans (hall t hin)
    have hunbroken : Kind.Unbroken d.kind :=
      Kind.unbroken_of_lower_mem_flavors (hlower ▸ List.mem_map_of_mem hf)
    rwa [Kind.reduceWord_of_unbroken hunbroken, hlower, htitle]

/-- Types whose kinds are written in capitals and with an underscore. -/
def spelledKinds : List Declaration :=
  [ { kind := "package", name := "shapes" },
    { kind := "CLASS", name := "Grid", scope := "shapes" },
    { kind := "enum_", name := "Color", scope := "shapes" } ]

theorem entries_of_landingPage_spelledKinds :
    ∃ x v, extract 0 .declaring spelledKinds = .ok x ∧ x.model.view true = .ok v ∧
      ∀ t ∈ x.model.types, ((landingSections (x.model.source v .defaults {}) "shapes").flatMap
        (·.2)).count t = if t.qualifiedName = "shapes.Grid" then 1 else 0 := by
  obtain ⟨x, hx, hpackage⟩ : ∃ x, extract 0 .declaring spelledKinds = .ok x ∧
      ∀ t ∈ x.model.types, t.info.package = ("shapes" : Text) := ⟨_, rfl, by decide⟩
  obtain ⟨v, hv, hpages⟩ := entries_of_landingPage hx true .defaults {}
  refine ⟨x, v, hx, hv, fun t ht => ?_⟩
  obtain ⟨d, hd, hname, hcount, -⟩ := (hpages "shapes").2.2 t ht
  have hgrid : ∀ d ∈ keptTypes .declaring spelledKinds,
      Kind.Unbroken d.kind ↔ d.typeName = ("shapes.Grid" : Text) := by decide
  rw [hcount, hname]
  simp only [hpackage t ht, hgrid d hd, true_and]

/-- A type that is accepted and that its package lists has no entry on the landing page. -/
theorem type_without_entry :
    ∃ x v, extract 0 .declaring spelledKinds = .ok x ∧ x.model.view true = .ok v ∧
      v.typesOf "shapes" = (["shapes.Color", "shapes.Grid"] : List Text) ∧
      headings (landingPage (x.model.source v .defaults {}) "shapes") =
        (["Package shapes", "Classes", "[Grid](/api/shapes/Grid)"] : List Text) :=
  ⟨_, _, rfl, rfl, rfl, rfl⟩

end ApiDocs
