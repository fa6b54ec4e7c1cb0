import ApiDocs.Proofs.Outlines

/-!
# Anchors on pages

Every type and member has its heading on one page. Whoever numbers the headings of a page finds
the anchor of the entity's target there exactly where no section title before the heading has its
slug.
-/

namespace ApiDocs

open Page

/-! ### Numbering the headings of a page -/

/-- The anchors of headings in order: the slug of each, with the number of headings before it that
have the slug. -/
def numberedAnchors (hs : List Text) : List Text :=
  (repeats Markdown.slug [] hs).map fun p => numberedSlug (Markdown.slug p.2) p.1

lemma getElem?_numberedAnchors (before after : List Text) (heading : Text) :
    (numberedAnchors (before ++ heading :: after))[before.length]? =
      some (numberedSlug (Markdown.slug heading)
        (before.countP (Markdown.slug · = Markdown.slug heading))) := by
  rw [numberedAnchors, repeats_append, List.map_append, List.getElem?_append_right
    (by rw [List.length_map, length_repeats]), List.length_map, length_repeats, Nat.sub_self]
  rfl

/-- Of the headings of an outline, those of landmarks and the titles are numbered. -/
lemma countP_outline (hs : List Heading) (slug : Text) :
    (hs.map Heading.text).countP (Markdown.slug · = slug) =
      (landmarksOf hs).countP (·.slug = slug) + (titlesOf hs).countP (Markdown.slug · = slug) := by
  induction hs with
  | nil => rfl
  | cons heading hs ih =>
    cases heading with
    | landmark l =>
      rw [List.map_cons, List.countP_cons, ih, landmarksOf_landmark, titlesOf_landmark,
        List.countP_cons, Nat.add_right_comm]
      rfl
    | title s =>
      rw [List.map_cons, List.countP_cons, ih, landmarksOf_title, titlesOf_title,
        List.countP_cons, Nat.add_assoc]
      rfl

/-- Landmarks of other pages do not count. -/
lemma Landmark.countP_key {earlier before : List Landmark} {l : Landmark}
    (hearlier : ∀ l' ∈ earlier, l'.page ≠ l.page) (hbefore : ∀ l' ∈ before, l'.page = l.page) :
    (earlier ++ before).countP (·.key = l.key) = before.countP (·.slug = l.slug) := by
  have hnone : earlier.countP (·.key = l.key) = 0 := by
    rw [List.countP_eq_zero]
    intro l' hl' hkey
    exact hearlier l' hl' (congrArg Prod.fst (of_decide_eq_true hkey))
  rw [List.countP_append, hnone, Nat.zero_add]
  apply List.countP_congr
  intro l' hl'
  simp [key, hbefore l' hl']

/-! ### Pages of a view -/

/-- The packages or types whose pages show types. -/
def Settings.pageNames (settings : Settings) (v : View) : List Text :=
  if settings.byPackage then v.packages else v.packages.flatMap v.typesOf

namespace Model

/-- What the pages of a view are made from. -/
def source (m : Model) (v : View) (settings : Settings) (resolutions : Resolutions) : Source where
  model := m
  view := v
  linking := { resolutions, targets := m.targets v settings }
  language := settings.codeLanguage

lemma page_of_mem_typeLandmarks {m : Model} {v : View} {settings : Settings} {page : Text}
    {t : TypeEntity} {l : Landmark} (h : l ∈ m.typeLandmarks v settings page t) :
    l.page = page := by
  rcases List.mem_cons.1 h with rfl | h
  · rfl
  · obtain ⟨e, -, rfl⟩ := List.mem_map.1 h
    rfl

variable {m : Model} (h : m.Consistent) (inherits : Bool) (settings : Settings)
  (resolutions : Resolutions)

include h

/-- The landmarks of a page are those of its types. -/
lemma landmarksOf_pageOutline (name : Text) :
    landmarksOf (pageOutline (m.source (m.viewOf inherits) settings resolutions) settings name) =
      (typesOn (m.source (m.viewOf inherits) settings resolutions) settings name).flatMap
        (m.typeLandmarks (m.viewOf inherits) settings (pagePath settings.apiRoot name)) := by
  let s := m.source (m.viewOf inherits) settings resolutions
  have htitle : landmarksOf (if settings.byPackage then [.title ("Package " ++ name)] else []) =
      [] := by
    split <;> rfl
  have htypes : ∀ t ∈ typesOn s settings name, t ∈ m.types := by
    intro t ht
    rw [typesOn] at ht
    split at ht
    · obtain ⟨n, -, hn⟩ := List.mem_filterMap.1 ht
      exact (h.findType?_eq_some_iff.1 hn).1
    · exact (h.findType?_eq_some_iff.1 (Option.mem_toList.1 ht)).1
  rw [pageOutline, landmarksOf_append, htitle, List.nil_append, landmarksOf_flatMap]
  apply List.flatMap_congr
  intro t ht
  exact landmarksOf_typeOutline s settings _ (filterMap_membersOf_viewOf h inherits (htypes t ht))

lemma page_of_mem_pageOutline {name : Text} {l : Landmark} (hl : l ∈ landmarksOf
      (pageOutline (m.source (m.viewOf inherits) settings resolutions) settings name)) :
    l.page = pagePath settings.apiRoot name := by
  rw [landmarksOf_pageOutline h] at hl
  obtain ⟨t, -, hl⟩ := List.mem_flatMap.1 hl
  exact page_of_mem_typeLandmarks hl

/-- The landmarks of the pages are all landmarks. -/
lemma landmarks_eq_flatMap_pageNames : m.landmarks (m.viewOf inherits) settings =
    (settings.pageNames (m.viewOf inherits)).flatMap fun name => landmarksOf
      (pageOutline (m.source (m.viewOf inherits) settings resolutions) settings name) := by
  simp only [landmarksOf_pageOutline h]
  by_cases hlayout : settings.byPackage = true
  · have hpage (p n : Text) : settings.pageOf p n = pagePath settings.apiRoot p := by
      rw [Settings.pageOf, if_pos hlayout]
    rw [landmarks, Settings.pageNames, if_pos hlayout]
    apply List.flatMap_congr
    intro p _
    simp only [packageLandmarks, typesOn, if_pos hlayout, hpage]
    rfl
  · have hpage (p n : Text) : settings.pageOf p n = pagePath settings.apiRoot n := by
      rw [Settings.pageOf, if_neg hlayout]
    rw [landmarks, Settings.pageNames, if_neg hlayout, List.flatMap_assoc]
    apply List.flatMap_congr
    intro p _
    rw [packageLandmarks, List.filterMap_eq_flatMap_toList, List.flatMap_assoc]
    apply List.flatMap_congr
    intro n _
    simp only [typesOn, if_neg hlayout, hpage]
    apply List.flatMap_congr
    intro t ht
    rw [(h.findType?_eq_some_iff.1 (Option.mem_toList.1 ht)).2]

/-- Where no other page has its path, a landmark is numbered after the landmarks before it on its
page. -/
lemma number_of_pageOutline {name : Text} (hname : name ∈ settings.pageNames (m.viewOf inherits))
    (halone : ∀ name' ∈ settings.pageNames (m.viewOf inherits),
      pagePath settings.apiRoot name' = pagePath settings.apiRoot name → name' = name)
    {before after : List Heading} {l : Landmark}
    (hsplit : pageOutline (m.source (m.viewOf inherits) settings resolutions) settings name =
      before ++ .landmark l :: after) :
    ((landmarksOf before).countP (·.slug = l.slug), l) ∈
      repeats Landmark.key [] (m.landmarks (m.viewOf inherits) settings) := by
  obtain ⟨names, names', hnames, hfresh⟩ := List.eq_append_cons_of_mem hname
  have hpage : ∀ l' ∈ landmarksOf before ++ l :: landmarksOf after,
      l'.page = pagePath settings.apiRoot name := by
    intro l' hl'
    apply page_of_mem_pageOutline h inherits settings resolutions
    rw [hsplit, landmarksOf_append]
    exact hl'
  have hl : l.page = pagePath settings.apiRoot name := hpage l (by simp)
  have hbefore : ∀ l' ∈ landmarksOf before, l'.page = l.page := by
    intro l' hl'
    rw [hl]
    exact hpage l' (List.mem_append_left _ hl')
  have hearlier : ∀ l' ∈ names.flatMap fun name => landmarksOf
      (pageOutline (m.source (m.viewOf inherits) settings resolutions) settings name),
      l'.page ≠ l.page := by
    intro l' hl' hsame
    obtain ⟨name', hname', hl'⟩ := List.mem_flatMap.1 hl'
    have hmem : name' ∈ settings.pageNames (m.viewOf inherits) := by
      rw [hnames]
      exact List.mem_append_left _ hname'
    rw [page_of_mem_pageOutline h inherits settings resolutions hl', hl] at hsame
    exact hfresh (halone name' hmem hsame ▸ hname')
  rw [mem_repeats_iff, landmarks_eq_flatMap_pageNames h inherits settings resolutions, hnames,
    List.flatMap_append, List.flatMap_cons, hsplit, landmarksOf_append, landmarksOf_landmark]
  simp only [List.append_assoc, List.cons_append]
  refine ⟨_ ++ _, _, (List.append_assoc ..).symm, ?_⟩
  rw [List.nil_append, Landmark.countP_key hearlier hbefore]

/-- Where no other page has its path, the target of a landmark leads to its heading exactly if no
title before it has its slug. -/
lemma target_eq_anchor_iff {name : Text}
    (hname : name ∈ settings.pageNames (m.viewOf inherits))
    (halone : ∀ name' ∈ settings.pageNames (m.viewOf inherits),
      pagePath settings.apiRoot name' = pagePath settings.apiRoot name → name' = name)
    {before after : List Heading} {l : Landmark} (hanchored : l.anchored = true)
    (hsplit : pageOutline (m.source (m.viewOf inherits) settings resolutions) settings name =
      before ++ .landmark l :: after) :
    ((m.targets (m.viewOf inherits) settings).get? l.name).map (·.path) =
        (numberedAnchors ((before ++ .landmark l :: after).map Heading.text))[before.length]?.map
          (pagePath settings.apiRoot name ++ "#" ++ ·) ↔
      ∀ title ∈ titlesOf before, Markdown.slug title ≠ l.slug := by
  have hnumber := number_of_pageOutline h inherits settings resolutions hname halone hsplit
  have hpage : l.page = pagePath settings.apiRoot name := by
    apply page_of_mem_pageOutline h inherits settings resolutions
    rw [hsplit, landmarksOf_append]
    simp
  have hanchor :=
    getElem?_numberedAnchors (before.map Heading.text) (after.map Heading.text) l.heading
  rw [List.length_map] at hanchor
  rw [get?_targets_landmark h inherits settings _ hnumber, Option.map_some, Landmark.target,
    if_pos hanchored, hpage, List.map_append, List.map_cons, Heading.text, hanchor, Option.map_some,
    Option.some_inj, List.append_cancel_left_eq, countP_outline]
  -- the page counts the titles too
  show numberedSlug l.slug ((landmarksOf before).countP (·.slug = l.slug)) =
    numberedSlug l.slug ((landmarksOf before).countP (·.slug = l.slug) + _) ↔ _
  rw [numberedSlug_inj, Nat.left_eq_add, List.countP_eq_zero]
  simp [Landmark.slug]

end Model

/-- In the view of an extracted model, the pages of packages, or of types, have the landmarks of all
types and members among their headings. Where the headings of a page are numbered in order, and no
other page has its path, a heading gets the anchor of its entity's target exactly if no section
title before it has its slug. -/
theorem target_eq_numberedAnchor_iff {n : Nat} {limit : Visibility} {ds : List Declaration}
    {x : Extracted} (h : extract n limit ds = .ok x) (inherits : Bool) (settings : Settings)
    (resolutions : Resolutions) :
    ∃ v, x.model.view inherits = .ok v ∧
      ((settings.pageNames v).flatMap fun name => landmarksOf
          (pageOutline (x.model.source v settings resolutions) settings name)) =
        x.model.landmarks v settings ∧
      ∀ name ∈ settings.pageNames v,
        ∃ ls, pageLines (x.model.source v settings resolutions) settings name = .ok ls ∧
          headings ls = (pageOutline (x.model.source v settings resolutions) settings name).map
            Heading.text ∧
          ((∀ name' ∈ settings.pageNames v,
              pagePath settings.apiRoot name' = pagePath settings.apiRoot name → name' = name) →
            ∀ before l after, pageOutline (x.model.source v settings resolutions) settings name =
                before ++ .landmark l :: after → l.anchored = true →
              (((x.model.targets v settings).get? l.name).map (·.path) =
                  (numberedAnchors (headings ls))[before.length]?.map
                    (pagePath settings.apiRoot name ++ "#" ++ ·) ↔
                ∀ title ∈ titlesOf before, Markdown.slug title ≠ l.slug)) := by
  have hc : x.model.Consistent := consistent_of_extract h
  refine ⟨x.model.viewOf inherits, hc.view_eq inherits,
    (Model.landmarks_eq_flatMap_pageNames hc inherits settings resolutions).symm, ?_⟩
  intro name hname
  obtain ⟨ls, hls⟩ := pageLines_ok settings
    (s := x.model.source (x.model.viewOf inherits) settings resolutions) hc name
  have hheadings := headings_pageLines settings hls
  refine ⟨ls, hls, hheadings, ?_⟩
  intro halone before l after hsplit hanchored
  rw [hheadings, hsplit]
  exact Model.target_eq_anchor_iff hc inherits settings resolutions hname halone hanchored hsplit

theorem target_eq_numberedAnchor_numberedNames :
    ∃ x v ls before l after, extract 0 .declaring numberedNames = .ok x ∧
      x.model.view true = .ok v ∧
      pageLines (x.model.source v .defaults {}) .defaults "p.A" = .ok ls ∧
      pageOutline (x.model.source v .defaults {}) .defaults "p.A" = before ++ .landmark l :: after ∧
      l.name = ("p.A#f" : Text) ∧ titlesOf before = (["Fields"] : List Text) ∧
      ((x.model.targets v .defaults).get? l.name).map (·.path) =
        (numberedAnchors (headings ls))[before.length]?.map
          (pagePath Settings.defaults.apiRoot "p.A" ++ "#" ++ ·) := by
  let before : List Heading :=
    [.landmark ⟨"p.A", "A", "/api/p/A", "Class A", false⟩, .title "Fields"]
  let l : Landmark := ⟨"p.A#f", "A.f", "/api/p/A", "f", true⟩
  obtain ⟨x, hx, v, hv, hnames, after, hsplit⟩ :
      ∃ x, extract 0 .declaring numberedNames = .ok x ∧ ∃ v, x.model.view true = .ok v ∧
        Settings.defaults.pageNames v = (["p.A"] : List Text) ∧
        ∃ after, pageOutline (x.model.source v .defaults {}) .defaults "p.A" =
          before ++ .landmark l :: after :=
    ⟨_, rfl, _, rfl, rfl, _, rfl⟩
  obtain ⟨v', hv', -, hpages⟩ := target_eq_numberedAnchor_iff hx true .defaults {}
  obtain rfl : v = v' := Except.ok.inj (hv.symm.trans hv')
  rw [hnames] at hpages
  obtain ⟨ls, hls, -, hanchors⟩ := hpages "p.A" (List.mem_singleton_self _)
  have halone : ∀ name' ∈ [("p.A" : Text)],
      pagePath Settings.defaults.apiRoot name' = pagePath Settings.defaults.apiRoot "p.A" →
        name' = "p.A" := fun name' hname' _ => List.mem_singleton.1 hname'
  exact ⟨x, v, ls, before, l, after, hx, hv, hls, hsplit, rfl, rfl,
    (hanchors halone before l after hsplit rfl).2 (by decide)⟩

/-- Declarations of a method that has the title of a section as its name. -/
def namedLikeSection : List Declaration :=
  [ { kind := "package", name := "p" },
    { kind := "class", name := "A", scope := "p" },
    { kind := "method", name := "methods", scope := "p.A" } ]

/-- The heading of a method gets another anchor than its target has. -/
theorem anchor_of_heading_named_like_section :
    ∃ x v ls, extract 0 .declaring namedLikeSection = .ok x ∧ x.model.view true = .ok v ∧
      pageLines (x.model.source v .defaults {}) .defaults "p.A" = .ok ls ∧
      headings ls = (["Class A", "Methods", "methods()"] : List Text) ∧
      numberedAnchors (headings ls) = (["class-a", "methods", "methods-1"] : List Text) ∧
      ((x.model.targets v .defaults).get? "p.A#methods()").map (·.path) =
        some ("/api/p/A#methods" : Text) := by
  obtain ⟨x, hx, v, hv, ls, hls, hheadings, htarget⟩ :
      ∃ x, extract 0 .declaring namedLikeSection = .ok x ∧ ∃ v, x.model.view true = .ok v ∧
        ∃ ls, pageLines (x.model.source v .defaults {}) .defaults "p.A" = .ok ls ∧
          headings ls = (["Class A", "Methods", "methods()"] : List Text) ∧
          ((x.model.targets v .defaults).get? "p.A#methods()").map (·.path) =
            some ("/api/p/A#methods" : Text) :=
    ⟨_, rfl, _, rfl, _, rfl, rfl, rfl⟩
  refine ⟨x, v, ls, hx, hv, hls, hheadings, ?_, htarget⟩
  rw [hheadings]
  rfl

end ApiDocs
