import ApiDocs.Proofs.EmittedPages
import ApiDocs.Proofs.OrderIndependence

/-!
# Files that targets lead to

The target of a type or member leads to a page that a run writes, in either layout. That of a
package does so where packages have pages: with one page for each type and without landing pages,
the file that it leads to is written only by chance, as that of a type or of the home page.
-/

namespace ApiDocs

open Page

/-- An anchor at the end of a path does not change the file. -/
lemma outputFile_append_anchor (page anchor : Text) :
    outputFile (page ++ "#" ++ anchor) = outputFile page := by
  have hcut : (page ++ .char '#' :: anchor).takeWhile (· != .char '#') =
      page.takeWhile (· != .char '#') := Text.takeWhile_append_seam (by decide) page anchor
  rw [List.append_assoc]
  show outputFile (page ++ .char '#' :: anchor) = outputFile page
  rw [outputFile, outputFile, hcut]

lemma Landmark.outputFile_target (l : Landmark) (number : Nat) :
    outputFile (l.target number).path = outputFile l.page := by
  rw [target]
  split
  · exact outputFile_append_anchor ..
  · rfl

/-! ### Files that are written -/

/-- Steps that each put values under some names put them under the names of all. -/
lemma Table.mem_keys_foldlM {α β ε : Type} {f : Table β → α → Except ε (Table β)}
    {names : α → List Text} {as : List α}
    (hf : ∀ a ∈ as, ∀ t t', f t a = .ok t' → ∀ k, k ∈ t'.keys ↔ k ∈ t.keys ∨ k ∈ names a)
    {t t' : Table β} (h : as.foldlM f t = .ok t') (k : Text) :
    k ∈ t'.keys ↔ k ∈ t.keys ∨ k ∈ as.flatMap names := by
  induction as generalizing t with
  | nil =>
    cases h
    simp
  | cons a as ih =>
    rw [List.foldlM_cons] at h
    obtain ⟨mid, hmid, h⟩ := bind_eq_ok_iff.1 h
    rw [ih (fun b hb => hf b (List.mem_cons_of_mem _ hb)) h, hf a (List.mem_cons_self ..) _ _ hmid,
      List.flatMap_cons, List.mem_append, or_assoc]

/-- The names of a package and its types that have pages of their own. -/
def Settings.pagesIn (settings : Settings) (v : View) (package : Text) : List Text :=
  if settings.byPackage then [package]
  else if settings.isOn "include_package_pages" true then package :: v.typesOf package
  else v.typesOf package

/-- A package has a page of its own where it is the only one or there are landing pages. -/
lemma Settings.mem_pagesIn_self {settings : Settings}
    (hpages : settings.byPackage = true ∨ settings.isOn "include_package_pages" true = true)
    (v : View) (package : Text) : package ∈ settings.pagesIn v package := by
  rw [pagesIn]
  split
  · exact List.mem_singleton_self package
  · rename_i hlayout
    rw [if_pos (hpages.resolve_left hlayout)]
    exact List.mem_cons_self ..

namespace Documents

variable {s : Source} {settings : Settings} {docs docs' : Documents}

lemma mem_keys_addType {t : TypeEntity} (h : addType s docs t = .ok docs') (f : Text) :
    f ∈ docs'.keys ↔ f ∈ docs.keys ∨ f ∈ [fileOf s.linking t.qualifiedName] := by
  obtain ⟨page, -, h⟩ := bind_eq_ok_iff.1 h
  cases h
  rw [Table.mem_keys_put, List.mem_singleton]

lemma mem_keys_addPackage {p : Text}
    (htypes : (typesOf s p).map (·.qualifiedName) = s.view.typesOf p)
    (h : addPackage s settings docs p = .ok docs') (f : Text) :
    f ∈ docs'.keys ↔ f ∈ docs.keys ∨ f ∈ (settings.pagesIn s.view p).map (fileOf s.linking) := by
  have hstep : ∀ t ∈ typesOf s p, ∀ docs docs', addType s docs t = .ok docs' → ∀ f,
      f ∈ docs'.keys ↔ f ∈ docs.keys ∨ f ∈ [fileOf s.linking t.qualifiedName] :=
    fun t _ docs docs' h f => mem_keys_addType h f
  have hfold {docs : Documents} (h : (typesOf s p).foldlM (addType s) docs = .ok docs') :
      f ∈ docs'.keys ↔ f ∈ docs.keys ∨ f ∈ (s.view.typesOf p).map (fileOf s.linking) := by
    rw [Table.mem_keys_foldlM hstep h, ← List.map_eq_flatMap, ← htypes, List.map_map]
    rfl
  rw [addPackage] at h
  rw [Settings.pagesIn]
  split at h
  · rename_i hlayout
    obtain ⟨page, -, h⟩ := bind_eq_ok_iff.1 h
    cases h
    rw [Table.mem_keys_put, if_pos hlayout, List.map_singleton, List.mem_singleton]
  · rename_i hlayout
    rw [if_neg hlayout]
    split at h
    · rename_i hlanding
      rw [hfold h, if_pos hlanding, Table.mem_keys_put, List.map_cons, List.mem_cons, or_assoc]
    · rename_i hlanding
      rw [hfold h, if_neg hlanding]

/-- The files are those of the names that have pages, and that of the home page. -/
lemma mem_keys_ofSource (hformat : settings.asData = false)
    (htypes : ∀ p ∈ s.view.packages, (typesOf s p).map (·.qualifiedName) = s.view.typesOf p)
    (h : ofSource s settings = .ok docs) (f : Text) :
    f ∈ docs.keys ↔
      f ∈ (s.view.packages.flatMap (settings.pagesIn s.view)).map (fileOf s.linking) ∨
        settings.isOn "include_home_page" false = true ∧ f = homeFile := by
  rw [ofSource, if_neg (by simp [hformat])] at h
  obtain ⟨pages, hpages, h⟩ := bind_eq_ok_iff.1 h
  have hstep : ∀ p ∈ s.view.packages, ∀ docs docs', addPackage s settings docs p = .ok docs' → ∀ f,
      f ∈ docs'.keys ↔ f ∈ docs.keys ∨ f ∈ (settings.pagesIn s.view p).map (fileOf s.linking) :=
    fun p hp docs docs' h f => mem_keys_addPackage (htypes p hp) h f
  have hkeys := Table.mem_keys_foldlM hstep hpages f
  rw [Table.keys_empty, ← List.map_flatMap] at hkeys
  simp only [List.not_mem_nil, false_or] at hkeys
  split at h
  · rename_i hhome
    cases h
    rw [Table.mem_keys_put, hkeys, eq_true hhome, true_and]
  · rename_i hhome
    cases h
    rw [hkeys, eq_false hhome, false_and, or_false]

end Documents

/-! ### Files of a consistent model -/

namespace Model

variable {m : Model} (h : m.Consistent) (inherits : Bool) {settings : Settings}

include h

/-- A name that has a page of its own has the file of that page. -/
lemma fileOf_of_mem_pagesIn (resolutions : Resolutions) {p n : Text} (hp : p ∈ m.packageNames)
    (hn : n ∈ settings.pagesIn (m.viewOf inherits) p) :
    Documents.fileOf (m.source (m.viewOf inherits) settings resolutions).linking n =
      outputFile (pagePath settings.apiRoot n) := by
  show outputFile ((Option.map _ ((m.targets (m.viewOf inherits) settings).get? n)).getD []) = _
  have hpackage : ((m.targets (m.viewOf inherits) settings).get? p).map (·.path) =
      some (pagePath settings.apiRoot p) := by
    rw [m.get?_targets_package settings (h.sequence_nodup inherits) hp, Option.map_some]
  have htype (hlayout : settings.byPackage = false) (hn : n ∈ (m.viewOf inherits).typesOf p) :
      ((m.targets (m.viewOf inherits) settings).get? n).map (·.path) =
        some (pagePath settings.apiRoot n) := by
    obtain ⟨t, ht, rfl⟩ := exists_type_of_mem_typesOf h hp hn
    exact path_targets_type h inherits hlayout ht
  rw [Settings.pagesIn] at hn
  split at hn
  · rw [List.mem_singleton.1 hn, hpackage, Option.getD_some]
  · rename_i hlayout
    rw [Bool.not_eq_true] at hlayout
    split at hn
    · rcases List.mem_cons.1 hn with rfl | hn
      · rw [hpackage, Option.getD_some]
      · rw [htype hlayout hn, Option.getD_some]
    · rw [htype hlayout hn, Option.getD_some]

/-- The documents of a view have the files of the names with pages, and that of the home page. -/
lemma mem_keys_documents (hformat : settings.asData = false) {resolutions : Resolutions}
    {docs : Documents} (hdocs : m.documents (m.viewOf inherits) settings resolutions = .ok docs)
    (f : Text) : f ∈ docs.keys ↔
      (∃ p ∈ m.packageNames, ∃ n ∈ settings.pagesIn (m.viewOf inherits) p,
        outputFile (pagePath settings.apiRoot n) = f) ∨
      settings.isOn "include_home_page" false = true ∧ f = Documents.homeFile := by
  let s := m.source (m.viewOf inherits) settings resolutions
  have hsource : Documents.ofSource s settings = .ok docs := by
    obtain ⟨_, -, hsource⟩ := bind_eq_ok_iff.1 hdocs
    exact hsource
  have htypes : ∀ p ∈ s.view.packages, (typesOf s p).map (·.qualifiedName) = s.view.typesOf p := by
    intro p hp
    exact h.map_filterMap_findType? fun n hn => exists_type_of_mem_typesOf h hp hn
  rw [Documents.mem_keys_ofSource hformat htypes hsource, List.mem_map]
  apply or_congr_left
  constructor
  · rintro ⟨n, hn, rfl⟩
    obtain ⟨p, hp, hn⟩ := List.mem_flatMap.1 hn
    exact ⟨p, hp, n, hn, (fileOf_of_mem_pagesIn h inherits resolutions hp hn).symm⟩
  · rintro ⟨p, hp, n, hn, rfl⟩
    exact ⟨n, List.mem_flatMap.2 ⟨p, hp, hn⟩, fileOf_of_mem_pagesIn h inherits resolutions hp hn⟩

/-- The target of a type or member leads to a name that has a page. -/
lemma exists_target_of_not_package {e : Entity} (he : e ∈ m.entities) (hkind : e.kind ≠ .package) :
    ∃ target, (m.targets (m.viewOf inherits) settings).get? e.qualifiedName = some target ∧
      ∃ p ∈ m.packageNames, ∃ n ∈ settings.pagesIn (m.viewOf inherits) p,
        outputFile (pagePath settings.apiRoot n) = outputFile target.path := by
  have hmem : e.qualifiedName ∈ (m.landmarks (m.viewOf inherits) settings).map (·.name) := by
    rw [(names_landmarks_perm h inherits settings).mem_iff]
    exact List.mem_map_of_mem (List.mem_filter.2 ⟨he, decide_eq_true hkind⟩)
  obtain ⟨l, hl, hname⟩ := List.mem_map.1 hmem
  obtain ⟨number, hnumber⟩ := exists_mem_repeats Landmark.key [] hl
  have htarget := get?_targets_landmark h inherits settings _ hnumber
  rw [hname] at htarget
  refine ⟨_, htarget, ?_⟩
  obtain ⟨p, hp, hl⟩ := List.mem_flatMap.1 hl
  obtain ⟨t, ht, hl⟩ := List.mem_flatMap.1 hl
  obtain ⟨n, hn, hfind⟩ := List.mem_filterMap.1 ht
  obtain ⟨-, rfl⟩ := h.findType?_eq_some_iff.1 hfind
  rw [l.outputFile_target, page_of_mem_typeLandmarks hl, Settings.pageOf]
  refine ⟨p, hp, if settings.byPackage then p else t.qualifiedName, ?_, rfl⟩
  rw [Settings.pagesIn]
  split
  · exact List.mem_singleton_self p
  · split
    · exact List.mem_cons_of_mem _ hn
    · exact hn

/-- Where packages have no pages, only types have. -/
lemma exists_mem_pagesIn_iff (hlayout : settings.byPackage = false)
    (hlanding : settings.isOn "include_package_pages" true = false) {P : Text → Prop} :
    (∃ p ∈ m.packageNames, ∃ n ∈ settings.pagesIn (m.viewOf inherits) p, P n) ↔
      ∃ t ∈ m.types, P t.qualifiedName := by
  have hpages (p : Text) :
      settings.pagesIn (m.viewOf inherits) p = (m.viewOf inherits).typesOf p := by
    rw [Settings.pagesIn, if_neg (by simp [hlayout]), if_neg (by simp [hlanding])]
  simp only [hpages]
  constructor
  · rintro ⟨p, hp, n, hn, hprop⟩
    obtain ⟨t, ht, rfl⟩ := exists_type_of_mem_typesOf h hp hn
    exact ⟨t, ht, hprop⟩
  · rintro ⟨t, ht, hprop⟩
    have hmem : t.qualifiedName ∈ m.packageNames.flatMap (m.viewOf inherits).typesOf :=
      (h.typesOf_perm inherits).mem_iff.2 (List.mem_map_of_mem ht)
    obtain ⟨p, hp, hn⟩ := List.mem_flatMap.1 hmem
    exact ⟨p, hp, _, hn, hprop⟩

/-- The target of a package leads to its page. -/
lemma exists_target_of_package {e : Entity} (he : e ∈ m.entities) (hkind : e.kind = .package) :
    e.qualifiedName ∈ m.packageNames ∧ ∃ target,
      (m.targets (m.viewOf inherits) settings).get? e.qualifiedName = some target ∧
        target.path = pagePath settings.apiRoot e.qualifiedName := by
  have hmem : e.qualifiedName ∈ m.packageNames :=
    mem_sortNames.2 (List.mem_map_of_mem (List.mem_filter.2 ⟨he, decide_eq_true hkind⟩))
  exact ⟨hmem, _, m.get?_targets_package settings (h.sequence_nodup inherits) hmem, rfl⟩

end Model

/-- With pages for output, the documents of the view of an extracted model can be made if the
settings that they show have texts. Every entity then has a target, which leads to the file of one
of the documents, unless it is that of a package where there is one page for each type and there are
no landing pages. The file of such a package is one of the documents only if it is that of a type
or of the home page. -/
theorem target_file_mem_documents_iff {n : Nat} {limit : Visibility} {ds : List Declaration}
    {x : Extracted} (h : extract n limit ds = .ok x) (inherits : Bool) {settings : Settings}
    (hformat : settings.asData = false) (resolutions : Resolutions) :
    ∃ v, x.model.view inherits = .ok v ∧
      ((∃ docs, x.model.documents v settings resolutions = .ok docs) ↔
        settings.checkShown = .ok ()) ∧
      ∀ docs, x.model.documents v settings resolutions = .ok docs →
        ∀ e ∈ x.model.entities, ∃ target,
          (x.model.targets v settings).get? e.qualifiedName = some target ∧
          (outputFile target.path ∈ docs.keys ↔
            e.kind ≠ .package ∨ settings.byPackage = true ∨
            settings.isOn "include_package_pages" true = true ∨
            (∃ t ∈ x.model.types,
              outputFile (pagePath settings.apiRoot t.qualifiedName) = outputFile target.path) ∨
            settings.isOn "include_home_page" false = true ∧
              outputFile target.path = Documents.homeFile) := by
  have hc : x.model.Consistent := consistent_of_extract h
  refine ⟨x.model.viewOf inherits, hc.view_eq inherits, ?_, fun docs hdocs e he => ?_⟩
  · obtain ⟨docs, hok⟩ := Model.documents_ok hc inherits settings resolutions
    rw [hok]
    cases settings.checkShown with
    | error f => simp [Except.map]
    | ok u => simp [Except.map]
  · by_cases hkind : e.kind = .package
    · obtain ⟨hmem, target, htarget, hpath⟩ := Model.exists_target_of_package hc inherits he hkind
      refine ⟨target, htarget, ?_⟩
      rw [Model.mem_keys_documents hc inherits hformat hdocs, hpath]
      by_cases hpages : settings.byPackage = true ∨
          settings.isOn "include_package_pages" true = true
      · refine iff_of_true (.inl ⟨_, hmem, _, Settings.mem_pagesIn_self hpages _ _, rfl⟩) (.inr ?_)
        exact or_assoc.1 (.inl hpages)
      · obtain ⟨hlayout, hlanding⟩ := not_or.1 hpages
        rw [Model.exists_mem_pagesIn_iff hc inherits (Bool.eq_false_iff.2 hlayout)
          (Bool.eq_false_iff.2 hlanding)]
        simp only [hkind, hlayout, hlanding, ne_eq, not_true_eq_false, Bool.false_eq_true, false_or]
    · obtain ⟨target, htarget, hwritten⟩ := Model.exists_target_of_not_package hc inherits he hkind
      refine ⟨target, htarget, iff_of_true ?_ (.inl hkind)⟩
      exact (Model.mem_keys_documents hc inherits hformat hdocs _).2 (.inl hwritten)

def oneClass : List Declaration :=
  [ { kind := "package", name := "p" },
    { kind := "class", name := "A", scope := "p" } ]

theorem target_file_mem_documents_oneClass :
    ∃ x v docs, extract 0 .declaring oneClass = .ok x ∧ Settings.defaults.asData = false ∧
      x.model.view true = .ok v ∧ x.model.documents v .defaults {} = .ok docs ∧
      ∀ e ∈ x.model.entities, ∃ target,
        (x.model.targets v .defaults).get? e.qualifiedName = some target ∧
          outputFile target.path ∈ docs.keys := by
  obtain ⟨x, hx⟩ : ∃ x, extract 0 .declaring oneClass = .ok x := ⟨_, rfl⟩
  have hformat : Settings.defaults.asData = false := rfl
  have hshown : Settings.defaults.checkShown = .ok () := rfl
  obtain ⟨v, hv, hmade, htargets⟩ := target_file_mem_documents_iff hx true hformat {}
  obtain ⟨docs, hdocs⟩ := hmade.2 hshown
  refine ⟨x, v, docs, hx, hformat, hv, hdocs, fun e he => ?_⟩
  obtain ⟨target, htarget, hfile⟩ := htargets docs hdocs e he
  have hlanding : Settings.defaults.isOn "include_package_pages" true = true := rfl
  exact ⟨target, htarget, hfile.2 (.inr (.inr (.inl hlanding)))⟩

def landingOff : Value := .map [(.text "include_package_pages", .bool false)]

/-- Without landing pages a package has a target, and no document has its file. -/
theorem target_without_document :
    ∃ settings x v docs target, Settings.ofOverrides landingOff = .ok settings ∧
      settings.asData = false ∧ extract 0 .declaring oneClass = .ok x ∧
      x.model.view settings.inherits = .ok v ∧ x.model.documents v settings {} = .ok docs ∧
      ("p" : Text) ∈ x.model.names ∧ (x.model.targets v settings).get? "p" = some target ∧
      outputFile target.path ∉ docs.keys := by
  refine ⟨_, _, _, _, _, rfl, rfl, rfl, rfl, rfl, ?_, rfl, ?_⟩
  · decide
  · decide

end ApiDocs
