import ApiDocs.Proofs.PageAnchors
import ApiDocs.Proofs.PageFiles

/-!
# One page for each package and type

With one page for each type, a run writes a landing page for each package and a page for each type.
They are put under their files one after the other, so there are as many documents as pages exactly
where no two pages have one file.
-/

namespace ApiDocs

open Page

/-! ### Tables of entries -/

namespace Table

variable {α β γ ε : Type}

/-- A table has as many entries as were put in exactly if their names are distinct. -/
lemma length_ofEntries_iff (es : List (Text × α)) :
    (ofEntries es).entries.length = es.length ↔ (es.map (·.1)).Nodup := by
  constructor
  · intro hlength
    have hsubset : (ofEntries es).keys ⊆ es.map (·.1) := fun k hk =>
      (mem_keys_ofEntries es k).1 hk
    have hperm : (ofEntries es).keys.Perm (es.map (·.1)) := by
      apply ((nodup_keys_ofEntries es).subperm hsubset).perm_of_length_le
      rw [keys, List.length_map, List.length_map, hlength]
    exact hperm.nodup_iff.1 (nodup_keys_ofEntries es)
  · intro hnodup
    rw [ofEntries_of_nodup hnodup]

/-- Steps that each put in what is made of an element put in what is made of all. -/
lemma foldlM_putAll {f : Table β → α → Except ε (Table β)} {make : α → Except ε γ}
    {entries : γ → List (Text × β)}
    (hf : ∀ a made, make a = .ok made → ∀ t, f t a = .ok (t.putAll (entries made)))
    {as : List α} {mades : List γ} (h : as.mapM make = .ok mades) (t : Table β) :
    as.foldlM f t = .ok (t.putAll (mades.flatMap entries)) := by
  induction as generalizing t mades with
  | nil =>
    cases h
    rfl
  | cons a as ih =>
    rw [List.mapM_cons] at h
    obtain ⟨made, hmade, h⟩ := bind_eq_ok_iff.1 h
    obtain ⟨rest, hrest, h⟩ := bind_eq_ok_iff.1 h
    cases h
    rw [List.foldlM_cons, hf a made hmade, ok_bind, ih hrest, List.flatMap_cons, putAll_append]

end Table

/-! ### Targets of packages and types -/

namespace Targeting

/-- A step keeps the targets of all other names. -/
def Keeps (f : Targeting → Targeting) (names : List Text) : Prop :=
  ∀ s, ∀ n ∉ names, (f s).targets.get? n = s.targets.get? n

lemma keeps_put (name title path : Text) : Keeps (·.put name title path) [name] := by
  intro s n hn
  show (s.targets.put name _).get? n = _
  rw [Table.get?_put, if_neg fun heq => hn (List.mem_singleton.2 heq)]

lemma Keeps.comp {f g : Targeting → Targeting} {names names' : List Text} (hf : Keeps f names)
    (hg : Keeps g names') : Keeps (g ∘ f) (names ++ names') := by
  intro s n hn
  rw [Function.comp_apply, hg _ n fun h => hn (List.mem_append_right _ h),
    hf _ n fun h => hn (List.mem_append_left _ h)]

lemma Keeps.foldl {f : Targeting → Text → Targeting} {block : Text → List Text} {names : List Text}
    (h : ∀ n ∈ names, Keeps (f · n) (block n)) :
    Keeps (fun s => names.foldl f s) (names.flatMap block) := by
  induction names with
  | nil => exact fun s n _ => rfl
  | cons n names ih =>
    rw [List.flatMap_cons]
    exact (h n (List.mem_cons_self ..)).comp (ih fun n' hn' => h n' (List.mem_cons_of_mem _ hn'))

section

variable (m : Model) (v : View) (settings : Settings)

lemma keeps_addMember (page : Text) (t : TypeEntity) (name : Text) :
    Keeps (addMember m page t · name) [name] := by
  intro s n hn
  show (addMember m page t s name).targets.get? n = _
  rw [addMember]
  split
  · rfl
  · exact keeps_put name _ _ _ n hn

lemma keeps_addType (packagePage name : Text) :
    Keeps (addType m v settings packagePage · name) (name :: v.membersOf name) := by
  intro s n hn
  obtain ⟨hname, hmembers⟩ := not_or.1 (mt List.mem_cons.2 hn)
  have hfold (page : Text) (t : TypeEntity) :
      Keeps (fun s => (v.membersOf name).foldl (addMember m page t) s) (v.membersOf name) := by
    have h := Keeps.foldl fun n (_ : n ∈ v.membersOf name) => keeps_addMember m page t n
    rwa [List.flatMap_singleton'] at h
  show (addType m v settings packagePage s name).targets.get? n = _
  rw [addType]
  split
  · rfl
  · rw [hfold _ _ _ n hmembers]
    exact keeps_put name _ _ _ n (mt List.mem_singleton.1 hname)

lemma keeps_addTypes (package page : Text) :
    Keeps (fun s => (v.typesOf package).foldl (addType m v settings page) s)
      ((v.typesOf package).flatMap fun n => n :: v.membersOf n) :=
  Keeps.foldl fun n _ => keeps_addType m v settings page n

lemma keeps_addPackage (name : Text) : Keeps (addPackage m v settings · name)
    (name :: (v.typesOf name).flatMap fun n => n :: v.membersOf n) :=
  (keeps_put name name (pagePath settings.apiRoot name)).comp (keeps_addTypes m v settings name _)

end

end Targeting

namespace Model

/-- The target of a package is its page. -/
lemma get?_targets_package (m : Model) {v : View} (settings : Settings) (hnodup : v.sequence.Nodup)
    {p : Text} (hp : p ∈ v.packages) :
    (m.targets v settings).get? p = some ⟨p, pagePath settings.apiRoot p⟩ := by
  obtain ⟨before, after, hpackages⟩ := List.append_of_mem hp
  rw [View.sequence, hpackages, List.flatMap_append, List.flatMap_cons] at hnodup
  obtain ⟨hown, hafter⟩ : p ∉ ((v.typesOf p).flatMap fun n => n :: v.membersOf n) ∧
      p ∉ after.flatMap fun p => p :: (v.typesOf p).flatMap fun n => n :: v.membersOf n := by
    have h := (List.nodup_cons.1 (List.nodup_append.1 hnodup).2.1).1
    exact not_or.1 (mt List.mem_append.2 h)
  have hlater := Targeting.Keeps.foldl fun n (_ : n ∈ after) =>
    Targeting.keeps_addPackage m v settings n
  rw [targets, hpackages, List.foldl_append, List.foldl_cons, hlater _ p hafter]
  rw [Targeting.addPackage, Targeting.keeps_addTypes m v settings p _ _ p hown, Targeting.put,
    Table.get?_put, if_pos rfl]

variable {m : Model} (h : m.Consistent) (inherits : Bool) {settings : Settings}

include h

/-- With one page for each type, the target of a type is its page. -/
lemma path_targets_type (hlayout : settings.byPackage = false) {t : TypeEntity} (ht : t ∈ m.types) :
    ((m.targets (m.viewOf inherits) settings).get? t.qualifiedName).map (·.path) =
      some (pagePath settings.apiRoot t.qualifiedName) := by
  have hmem : t.qualifiedName ∈ m.packageNames.flatMap (m.viewOf inherits).typesOf :=
    (h.typesOf_perm inherits).mem_iff.2 (List.mem_map_of_mem ht)
  obtain ⟨p, hp, hn⟩ := List.mem_flatMap.1 hmem
  have hlandmark : Landmark.ofType settings (settings.pageOf p t.qualifiedName) t ∈
      m.landmarks (m.viewOf inherits) settings := by
    refine List.mem_flatMap.2 ⟨p, hp, List.mem_flatMap.2 ⟨t, ?_, List.mem_cons_self ..⟩⟩
    exact List.mem_filterMap.2 ⟨_, hn, h.findType?_of_mem ht⟩
  obtain ⟨number, hnumber⟩ := exists_mem_repeats Landmark.key [] hlandmark
  have htarget := get?_targets_landmark h inherits settings _ hnumber
  have hname : (Landmark.ofType settings (settings.pageOf p t.qualifiedName) t).name =
      t.qualifiedName := rfl
  rw [← hname, htarget, Option.map_some, Landmark.target]
  simp [Landmark.ofType, Settings.pageOf, hlayout]

end Model

/-! ### The pages of packages and types -/

namespace Page

def namedTypePage (s : Source) (t : TypeEntity) : Except Failure (Text × Text) := do
  return (t.qualifiedName, render (← typePage s t))

/-- The landing page of a package and the pages of its types, with their names. -/
def packagePages (s : Source) (package : Text) : Except Failure (List (Text × Text)) := do
  return (package, render (landingPage s package)) :: (← (typesOf s package).mapM (namedTypePage s))

/-- The pages of packages and types with their names, in the order of emission. -/
def namedPages (s : Source) : Except Failure (List (Text × Text)) := do
  return (← s.view.packages.mapM (packagePages s)).flatten

/-- The home page with its file, where it is wanted. -/
def homeEntries (s : Source) (settings : Settings) : List (Text × Text) :=
  if settings.isOn "include_home_page" false then
    [(Documents.homeFile, homePage s.linking s.view)]
  else []

variable {s : Source}

lemma namedPages_ok (h : s.model.Consistent) : ∃ pages, namedPages s = .ok pages := by
  have htype (t : TypeEntity) : ∃ page, namedTypePage s t = .ok page := by
    obtain ⟨ls, hls⟩ := typePage_ok h t
    exact ⟨_, by rw [namedTypePage, hls]; rfl⟩
  have hpackage (p : Text) : ∃ pages, packagePages s p = .ok pages := by
    obtain ⟨pages, hpages⟩ := exists_mapM_ok fun t (_ : t ∈ typesOf s p) => htype t
    exact ⟨_, by rw [packagePages, hpages]; rfl⟩
  obtain ⟨pages, hpages⟩ := exists_mapM_ok fun p (_ : p ∈ s.view.packages) => hpackage p
  exact ⟨_, by rw [namedPages, hpages]; rfl⟩

lemma names_packagePages {p : Text} {pages : List (Text × Text)}
    (h : packagePages s p = .ok pages) :
    pages.map (·.1) = p :: (typesOf s p).map (·.qualifiedName) := by
  obtain ⟨types, htypes, h⟩ := bind_eq_ok_iff.1 h
  cases h
  have hnames := flatMap_of_mapM_ok htypes (g := fun page => [page.1])
    (k := fun t => [t.qualifiedName]) fun t _ page hpage => by
      obtain ⟨ls, -, hpage⟩ := bind_eq_ok_iff.1 hpage
      cases hpage
      rfl
  rw [← List.map_eq_flatMap, ← List.map_eq_flatMap] at hnames
  rw [List.map_cons, hnames]

lemma names_namedPages {pages : List (Text × Text)} (h : namedPages s = .ok pages) :
    pages.map (·.1) =
      s.view.packages.flatMap fun p => p :: (typesOf s p).map (·.qualifiedName) := by
  obtain ⟨blocks, hblocks, h⟩ := bind_eq_ok_iff.1 h
  cases h
  rw [List.map_flatten, ← List.flatMap_def]
  exact flatMap_of_mapM_ok hblocks fun p _ pages hpages => names_packagePages hpages

end Page

/-! ### The documents -/

namespace Documents

variable {s : Source} {settings : Settings}

/-- A page with its file for its name. -/
def filed (l : Linking) (page : Text × Text) : Text × Text := (fileOf l page.1, page.2)

lemma addType_eq {t : TypeEntity} {page : Text × Text} (h : namedTypePage s t = .ok page)
    (docs : Documents) : addType s docs t = .ok (docs.putAll [filed s.linking page]) := by
  obtain ⟨ls, hls, h⟩ := bind_eq_ok_iff.1 h
  cases h
  rw [addType, hls]
  rfl

section

variable (hlayout : settings.byPackage = false)
  (hlanding : settings.isOn "include_package_pages" true = true)

include hlayout hlanding

lemma addPackage_eq {p : Text} {pages : List (Text × Text)} (h : packagePages s p = .ok pages)
    (docs : Documents) :
    addPackage s settings docs p = .ok (docs.putAll (pages.map (filed s.linking))) := by
  obtain ⟨types, htypes, h⟩ := bind_eq_ok_iff.1 h
  cases h
  rw [addPackage, if_neg (by simp [hlayout]), if_pos hlanding,
    Table.foldlM_putAll (fun _ _ => addType_eq) htypes, List.map_cons, List.map_eq_flatMap]
  rfl

/-- The pages of a source are put under their files, and then the home page is. -/
lemma ofSource_eq (hformat : settings.asData = false) {pages : List (Text × Text)}
    (h : namedPages s = .ok pages) :
    ofSource s settings =
      .ok (.ofEntries (pages.map (filed s.linking) ++ homeEntries s settings)) := by
  obtain ⟨blocks, hblocks, h⟩ := bind_eq_ok_iff.1 h
  cases h
  have hentries : blocks.flatMap (List.map (filed s.linking)) =
      blocks.flatten.map (filed s.linking) := by
    rw [List.flatMap_def, List.map_flatten]
  rw [ofSource, if_neg (by simp [hformat]),
    Table.foldlM_putAll (fun _ _ => addPackage_eq hlayout hlanding) hblocks, ok_bind, hentries,
    homeEntries, Table.ofEntries, Table.putAll_append]
  split <;> rfl

end

end Documents

namespace Model.Consistent

variable {m : Model} (h : m.Consistent) (inherits : Bool) {settings : Settings}
  (resolutions : Resolutions)

include h

/-- The pages are those of the packages and of their types. -/
lemma names_namedPages {pages : List (Text × Text)}
    (hpages : namedPages (m.source (m.viewOf inherits) settings resolutions) = .ok pages) :
    pages.map (·.1) = m.packageNames.flatMap fun p => p :: (m.viewOf inherits).typesOf p := by
  rw [Page.names_namedPages hpages]
  apply List.flatMap_congr
  intro p hp
  have htypes : ∀ n ∈ (m.viewOf inherits).typesOf p, ∃ t ∈ m.types, t.qualifiedName = n :=
    fun n hn => exists_type_of_mem_typesOf h hp hn
  exact congrArg (p :: ·) (h.map_filterMap_findType? htypes)

lemma names_namedPages_perm {pages : List (Text × Text)}
    (hpages : namedPages (m.source (m.viewOf inherits) settings resolutions) = .ok pages) :
    (pages.map (·.1)).Perm
      ((m.ofKind .package).map (·.qualifiedName) ++ m.types.map (·.qualifiedName)) := by
  rw [h.names_namedPages inherits resolutions hpages]
  exact (perm_flatMap_cons _ _).trans ((sortNames_perm _).append (h.typesOf_perm inherits))

/-- The file of a page is that of the name. -/
lemma fileOf_namedPages (hlayout : settings.byPackage = false) {pages : List (Text × Text)}
    (hpages : namedPages (m.source (m.viewOf inherits) settings resolutions) = .ok pages) :
    ∀ page ∈ pages,
      Documents.fileOf (m.source (m.viewOf inherits) settings resolutions).linking page.1 =
        outputFile (pagePath settings.apiRoot page.1) := by
  intro page hpage
  have hname : page.1 ∈ m.packageNames ++ m.packageNames.flatMap (m.viewOf inherits).typesOf := by
    rw [← (perm_flatMap_cons _ _).mem_iff, ← h.names_namedPages inherits resolutions hpages]
    exact List.mem_map_of_mem hpage
  have hpath : ((m.targets (m.viewOf inherits) settings).get? page.1).map (·.path) =
      some (pagePath settings.apiRoot page.1) := by
    rcases List.mem_append.1 hname with hpackage | htype
    · rw [m.get?_targets_package settings (h.sequence_nodup inherits) hpackage, Option.map_some]
    · obtain ⟨t, ht, hname⟩ := List.mem_map.1 ((h.typesOf_perm inherits).mem_iff.1 htype)
      rw [← hname]
      exact path_targets_type h inherits hlayout ht
  rw [Documents.fileOf]
  show outputFile
    ((Option.map _ ((m.targets (m.viewOf inherits) settings).get? page.1)).getD []) = _
  rw [hpath, Option.getD_some]

end Model.Consistent

/-- With one page for each type and landing pages, an extracted model has a page for each package
and each type. The documents of its view are as many as these, and the home page if it is wanted,
exactly where they all have different files; then each page is the document under its file. Two
names have one file where they have the same path segments, or where the root of the page paths has
a number sign. -/
theorem documents_of_pages {n : Nat} {limit : Visibility} {ds : List Declaration} {x : Extracted}
    (h : extract n limit ds = .ok x) (inherits : Bool) {settings : Settings}
    (hformat : settings.asData = false) (hlayout : settings.byPackage = false)
    (hlanding : settings.isOn "include_package_pages" true = true)
    (hshown : settings.checkShown = .ok ()) (resolutions : Resolutions) :
    ∃ v pages docs, x.model.view inherits = .ok v ∧
      namedPages (x.model.source v settings resolutions) = .ok pages ∧
      x.model.documents v settings resolutions = .ok docs ∧
      (pages.map (·.1)).Perm ((x.model.ofKind .package).map (·.qualifiedName) ++
        x.model.types.map (·.qualifiedName)) ∧
      (let entries :=
        pages.map (fun page => (outputFile (pagePath settings.apiRoot page.1), page.2)) ++
          homeEntries (x.model.source v settings resolutions) settings
      (docs.entries.length = entries.length ↔ (entries.map (·.1)).Nodup) ∧
        ((entries.map (·.1)).Nodup → docs.entries = entries)) ∧
      ∀ name name', outputFile (pagePath settings.apiRoot name) =
          outputFile (pagePath settings.apiRoot name') ↔
        .char '#' ∈ settings.apiRoot ∨ Markdown.segments name = Markdown.segments name' := by
  have hc : x.model.Consistent := consistent_of_extract h
  let v := x.model.viewOf inherits
  obtain ⟨pages, hpages⟩ := namedPages_ok (s := x.model.source v settings resolutions) hc
  have hfiles : pages.map (Documents.filed (x.model.source v settings resolutions).linking) =
      pages.map fun page => (outputFile (pagePath settings.apiRoot page.1), page.2) := by
    apply List.map_congr_left
    intro page hpage
    rw [Documents.filed, hc.fileOf_namedPages inherits resolutions hlayout hpages page hpage]
  have hdocs := Documents.ofSource_eq hlayout hlanding hformat hpages
  rw [hfiles] at hdocs
  refine ⟨v, pages, _, hc.view_eq inherits, hpages, ?_,
    hc.names_namedPages_perm inherits resolutions hpages,
    ⟨Table.length_ofEntries_iff _, fun hnodup => ?_⟩, pageFile_eq_iff _⟩
  · rw [Model.documents, hshown, ok_bind]
    exact hdocs
  · rw [Table.ofEntries_of_nodup hnodup]

theorem documents_of_pages_numberedNames :
    ∃ x v pages docs, extract 0 .declaring numberedNames = .ok x ∧ x.model.view true = .ok v ∧
      namedPages (x.model.source v .defaults {}) = .ok pages ∧
      x.model.documents v .defaults {} = .ok docs ∧
      pages.map (·.1) = (["p", "p.A"] : List Text) ∧
      docs.keys = (["api/p.md", "api/p/A.md"] : List Text) ∧
      docs.entries.length = pages.length := by
  obtain ⟨x, hx, v, hv, pages, hpages, hnames⟩ :
      ∃ x, extract 0 .declaring numberedNames = .ok x ∧ ∃ v, x.model.view true = .ok v ∧
        ∃ pages, namedPages (x.model.source v .defaults {}) = .ok pages ∧
          pages.map (·.1) = (["p", "p.A"] : List Text) :=
    ⟨_, rfl, _, rfl, _, rfl, rfl⟩
  have hformat : Settings.defaults.asData = false := rfl
  have hlayout : Settings.defaults.byPackage = false := rfl
  have hlanding : Settings.defaults.isOn "include_package_pages" true = true := rfl
  have hshown : Settings.defaults.checkShown = .ok () := rfl
  obtain ⟨v', pages', docs, hv', hpages', hdocs, -, ⟨hlength, hentries⟩, -⟩ :=
    documents_of_pages hx true hformat hlayout hlanding hshown {}
  obtain rfl : v = v' := Except.ok.inj (hv.symm.trans hv')
  obtain rfl : pages = pages' := Except.ok.inj (hpages.symm.trans hpages')
  have hhome : homeEntries (x.model.source v .defaults {}) .defaults = [] := rfl
  have hfiles : (pages.map fun page =>
      (outputFile (pagePath Settings.defaults.apiRoot page.1), page.2)).map (·.1) =
      (["api/p.md", "api/p/A.md"] : List Text) := by
    have h := congrArg (List.map fun n => outputFile (pagePath Settings.defaults.apiRoot n)) hnames
    rw [List.map_map] at h ⊢
    exact h
  rw [hhome, List.append_nil, hfiles] at hlength hentries
  have hnodup : (["api/p.md", "api/p/A.md"] : List Text).Nodup := by decide
  refine ⟨x, v, pages, docs, hx, hv, hpages, hdocs, hnames, ?_, ?_⟩
  · rw [Table.keys, hentries hnodup, hfiles]
  · rw [hlength.2 hnodup, List.length_map]

/-- Declarations of a class, and of another that has a dollar sign at the end of its name. -/
def dollarNames : List Declaration :=
  [ { kind := "package", name := "p" },
    { kind := "class", name := "A", scope := "p" },
    { kind := "class", name := "A$", scope := "p" } ]

/-- The page of a class is overwritten by that of another one. -/
theorem page_overwritten :
    ∃ x v pages docs, extract 0 .declaring dollarNames = .ok x ∧ x.model.view true = .ok v ∧
      namedPages (x.model.source v .defaults {}) = .ok pages ∧
      x.model.documents v .defaults {} = .ok docs ∧
      pages.map (·.1) = (["p", "p.A", "p.A$"] : List Text) ∧
      docs.keys = (["api/p.md", "api/p/A.md"] : List Text) ∧
      docs.get? "api/p/A.md" = pages.lookup ("p.A$" : Text) := by
  exact ⟨_, _, _, _, rfl, rfl, rfl, rfl, rfl, rfl, rfl⟩

end ApiDocs
