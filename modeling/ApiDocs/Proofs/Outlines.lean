import ApiDocs.Proofs.Landmarks
import ApiDocs.Proofs.Rendering

/-!
# Outlines of pages

The headings of a page are the landmarks of its types and members and, between them, the titles of
sections. A reader of the page numbers all of them, but the target of an entity counts landmarks
only, so it leads to the heading of the entity exactly where no title before it has its slug.
-/

namespace ApiDocs

namespace Page

/-! ### Headings of lines -/

@[simp] lemma headings_nil : headings [] = [] := rfl

@[simp] lemma headings_heading (level : Nat) (s : Text) (ls : List Line) :
    headings (.heading level s :: ls) = s :: headings ls := rfl

@[simp] lemma headings_text (s : Text) (ls : List Line) :
    headings (.text s :: ls) = headings ls := rfl

@[simp] lemma headings_blank (ls : List Line) : headings (blank :: ls) = headings ls := rfl

@[simp] lemma headings_append (ls ls' : List Line) :
    headings (ls ++ ls') = headings ls ++ headings ls' := List.filterMap_append

lemma headings_flatten (sections : List (List Line)) :
    headings sections.flatten = sections.flatMap headings := List.filterMap_flatten ..

@[simp] lemma headings_map_text {α : Type} (f : α → Text) (as : List α) :
    headings (as.map fun a => .text (f a)) = [] := by
  rw [headings, List.filterMap_map]
  exact List.filterMap_eq_nil_iff.2 fun _ _ => rfl

@[simp] lemma headings_paragraph (s : Text) : headings (paragraph s) = [] := by
  rw [paragraph]
  split <;> rfl

@[simp] lemma headings_textLines (l : Linking) (d : MergedDoc) : headings (textLines l d) = [] := by
  simp [textLines]

@[simp] lemma headings_deprecationLines (l : Linking) (d : MergedDoc) :
    headings (deprecationLines l d) = [] := by
  rw [deprecationLines]
  split <;> rfl

@[simp] lemma headings_labelledLines (l : Linking) (d : MergedDoc) :
    headings (labelledLines l d) = [] := by
  have hlabelled : headings (tagLabels.flatMap fun kind => (tagsOf kind.1 d.tags).map fun t =>
      .text ("**" ++ kind.2 ++ ":** " ++ tagText l t)) = [] := by
    simp [tagLabels]
  rw [labelledLines, closed]
  split
  · rfl
  · rw [headings_append, hlabelled]
    rfl

@[simp] lemma headings_sourceLines (l : Linking) (d : MergedDoc) :
    headings (sourceLines l d) = [] := by
  rw [sourceLines]
  split <;> rfl

@[simp] lemma headings_signatureLines (language signature : Text) :
    headings (signatureLines language signature) = [] := by
  rw [signatureLines]
  split <;> rfl

@[simp] lemma headings_frontMatter (l : Linking) (name : Text) :
    headings (frontMatter l name) = [] := by
  simp [frontMatter]

/-! ### Titles of sections

A section has the same titles at every level. -/

lemma headings_seeAlsoLines (l : Linking) (level : Nat) (d : MergedDoc) :
    headings (seeAlsoLines l level d) = headings (seeAlsoLines l 1 d) := by
  simp only [seeAlsoLines]
  split <;> rfl

lemma headings_resultLines (l : Linking) (level : Nat) (e : Entity) (d : MergedDoc) :
    headings (resultLines l level e d) = headings (resultLines l 1 e d) := by
  simp only [resultLines, apply_ite headings]
  rfl

lemma headings_throwsLines (l : Linking) (level : Nat) (d : MergedDoc) :
    headings (throwsLines l level d) = headings (throwsLines l 1 d) := by
  simp only [throwsLines]
  split <;> rfl

lemma headings_inheritanceLines (s : Source) (level : Nat) (t : TypeEntity) :
    headings (inheritanceLines s level t) = headings (inheritanceLines s 1 t) := by
  simp only [inheritanceLines]
  split <;> rfl

lemma headings_interfaceLines (s : Source) (level : Nat) (t : TypeEntity) :
    headings (interfaceLines s level t) = headings (interfaceLines s 1 t) := by
  simp only [interfaceLines]
  split <;> rfl

end Page

/-! ### Outlines -/

/-- A heading of a page: that of a type or member, or the title of a section. -/
inductive Heading where
  | landmark (l : Landmark)
  | title (s : Text)

namespace Heading

def text : Heading → Text
  | landmark l => l.heading
  | title s => s

def landmark? : Heading → Option Landmark
  | landmark l => some l
  | title _ => none

def title? : Heading → Option Text
  | landmark _ => none
  | title s => some s

end Heading

def landmarksOf (hs : List Heading) : List Landmark := hs.filterMap Heading.landmark?

def titlesOf (hs : List Heading) : List Text := hs.filterMap Heading.title?

namespace Page

variable (s : Source) (settings : Settings) (page : Text)

def parameterTitles (e : Entity) : List Text :=
  if e.isField || e.parameterTypes.isEmpty then [] else ["Parameters"]

def memberTitles (e : Entity) : List Text :=
  let d := s.view.doc e.qualifiedName
  parameterTitles e ++
    headings (resultLines s.linking 1 e d ++ throwsLines s.linking 1 d ++
      seeAlsoLines s.linking 1 d)

def memberOutline (t : TypeEntity) (e : Entity) : List Heading :=
  .landmark (.ofMember page t e) :: (memberTitles s e).map .title

def groupOutline (t : TypeEntity) (members : List Entity) (group : MemberKind × Text) :
    List Heading :=
  let inGroup := members.filter (·.category = .member group.1)
  if inGroup.isEmpty then [] else .title group.2 :: inGroup.flatMap (memberOutline s page t)

def typeOutline (t : TypeEntity) : List Heading :=
  let members := (s.view.membersOf t.qualifiedName).filterMap s.model.find?
  .landmark (.ofType settings page t) ::
    (headings (inheritanceLines s 1 t ++ interfaceLines s 1 t)).map .title ++
    memberGroups.flatMap (groupOutline s page t members) ++
    (headings (seeAlsoLines s.linking 1 (s.view.doc t.qualifiedName))).map .title

/-- The types that are shown on the page of a package or type. -/
def typesOn (name : Text) : List TypeEntity :=
  if settings.byPackage then typesOf s name else (s.model.findType? name).toList

def pageLines (name : Text) : Except Failure (List Line) :=
  if settings.byPackage then packagePage s name
  else match s.model.findType? name with
    | some t => typePage s t
    | none => .ok []

def pageOutline (name : Text) : List Heading :=
  (if settings.byPackage then [.title ("Package " ++ name)] else []) ++
    (typesOn s settings name).flatMap (typeOutline s settings (pagePath settings.apiRoot name))

/-! ### Pages have the headings of their outlines -/

variable {s}

lemma headings_parameterLines {l : Linking} {level : Nat} {e : Entity} {d : MergedDoc}
    {ls : List Line} (h : parameterLines l level e d = .ok ls) :
    headings ls = parameterTitles e := by
  rw [parameterLines] at h
  rw [parameterTitles]
  split at h
  · rename_i hnone
    cases h
    rw [if_pos hnone]
    rfl
  · rename_i hsome
    obtain ⟨pairs, -, h⟩ := bind_eq_ok_iff.1 h
    cases h
    rw [if_neg hsome]
    rfl

lemma headings_memberLines {level : Nat} {e : Entity} {ls : List Line}
    (h : memberLines s level e = .ok ls) (t : TypeEntity) :
    headings ls = (memberOutline s page t e).map Heading.text := by
  obtain ⟨parameters, hparameters, h⟩ := bind_eq_ok_iff.1 h
  cases h
  simp only [headings_append, headings_heading, headings_blank, headings_nil,
    headings_signatureLines, headings_deprecationLines, headings_textLines, headings_sourceLines,
    headings_labelledLines, headings_parameterLines hparameters, headings_resultLines _ (level + 1),
    headings_throwsLines _ (level + 1), headings_seeAlsoLines _ (level + 1)]
  simp [memberOutline, memberTitles, Heading.text, Landmark.ofMember, Function.comp_def]

lemma headings_groupLines {level : Nat} {members : List Entity} {group : MemberKind × Text}
    {ls : List Line} (h : groupLines s level members group = .ok ls) (t : TypeEntity) :
    headings ls = (groupOutline s page t members group).map Heading.text := by
  rw [groupLines] at h
  rw [groupOutline]
  split at h
  · rename_i hnone
    cases h
    rw [if_pos hnone]
    rfl
  · rename_i hsome
    obtain ⟨sections, hsections, h⟩ := bind_eq_ok_iff.1 h
    cases h
    rw [if_neg hsome, headings_append, headings_flatten,
      flatMap_of_mapM_ok hsections fun e _ ls hls => headings_memberLines page hls t,
      List.map_cons, List.map_flatMap]
    rfl

lemma headings_typeSection {level : Nat} {t : TypeEntity} {ls : List Line}
    (h : typeSection s level t = .ok ls) :
    headings ls = (typeOutline s settings page t).map Heading.text := by
  obtain ⟨groups, hgroups, h⟩ := bind_eq_ok_iff.1 h
  cases h
  have hgroups := flatMap_of_mapM_ok hgroups fun group _ ls hls =>
    headings_groupLines page hls t
  simp only [headings_append, headings_heading, headings_blank, headings_text, headings_nil,
    headings_deprecationLines, headings_textLines, headings_signatureLines, headings_labelledLines,
    headings_flatten, hgroups, headings_inheritanceLines _ (level + 1),
    headings_interfaceLines _ (level + 1), headings_seeAlsoLines _ (level + 1)]
  simp [typeOutline, Heading.text, Landmark.ofType, Function.comp_def, List.map_flatMap]

lemma headings_typePage {t : TypeEntity} {ls : List Line} (h : typePage s t = .ok ls) :
    headings ls = (typeOutline s settings page t).map Heading.text := by
  obtain ⟨section', hsection, h⟩ := bind_eq_ok_iff.1 h
  cases h
  rw [headings_append, headings_frontMatter, List.nil_append,
    headings_typeSection settings page hsection]

lemma headings_packagePage {package : Text} {ls : List Line} (h : packagePage s package = .ok ls) :
    headings ls = ("Package " ++ package) ::
      (typesOf s package).flatMap fun t => (typeOutline s settings page t).map Heading.text := by
  obtain ⟨sections, hsections, h⟩ := bind_eq_ok_iff.1 h
  cases h
  rw [headings_append, headings_append, headings_frontMatter, headings_flatten,
    flatMap_of_mapM_ok hsections fun t _ ls hls => headings_typeSection settings page hls,
    packageHead, headings_append, headings_textLines, List.append_nil]
  rfl

/-- The headings of a page are those of its outline. -/
lemma headings_pageLines {name : Text} {ls : List Line} (h : pageLines s settings name = .ok ls) :
    headings ls = (pageOutline s settings name).map Heading.text := by
  rw [pageLines] at h
  rw [pageOutline, typesOn, List.map_append, List.map_flatMap]
  split at h
  · rename_i hpackage
    rw [if_pos hpackage, if_pos hpackage,
      headings_packagePage settings (pagePath settings.apiRoot name) h]
    rfl
  · rename_i htype
    rw [if_neg htype, if_neg htype]
    cases hfind : s.model.findType? name with
    | none =>
      rw [hfind] at h
      cases h
      rfl
    | some t =>
      rw [hfind] at h
      rw [headings_typePage settings (pagePath settings.apiRoot name) h]
      simp

lemma pageLines_ok (h : s.model.Consistent) (name : Text) :
    ∃ ls, pageLines s settings name = .ok ls := by
  rw [pageLines]
  split
  · exact packagePage_ok h name
  · split
    · exact typePage_ok h _
    · exact ⟨[], rfl⟩

end Page

/-! ### Outlines have the landmarks of their pages -/

@[simp] lemma landmarksOf_landmark (l : Landmark) (hs : List Heading) :
    landmarksOf (.landmark l :: hs) = l :: landmarksOf hs := rfl

@[simp] lemma landmarksOf_title (title : Text) (hs : List Heading) :
    landmarksOf (.title title :: hs) = landmarksOf hs := rfl

@[simp] lemma titlesOf_landmark (l : Landmark) (hs : List Heading) :
    titlesOf (.landmark l :: hs) = titlesOf hs := rfl

@[simp] lemma titlesOf_title (title : Text) (hs : List Heading) :
    titlesOf (.title title :: hs) = title :: titlesOf hs := rfl

@[simp] lemma landmarksOf_append (hs hs' : List Heading) :
    landmarksOf (hs ++ hs') = landmarksOf hs ++ landmarksOf hs' := List.filterMap_append

lemma landmarksOf_flatMap {α : Type} (as : List α) (f : α → List Heading) :
    landmarksOf (as.flatMap f) = as.flatMap fun a => landmarksOf (f a) := List.filterMap_flatMap ..

@[simp] lemma landmarksOf_titles (titles : List Text) : landmarksOf (titles.map .title) = [] := by
  rw [landmarksOf, List.filterMap_map]
  exact List.filterMap_eq_nil_iff.2 fun _ _ => rfl

namespace Page

variable (s : Source) (settings : Settings) (page : Text)

lemma landmarksOf_memberOutline (t : TypeEntity) (e : Entity) :
    landmarksOf (memberOutline s page t e) = [.ofMember page t e] := by
  simp [memberOutline]

lemma landmarksOf_groupOutline (t : TypeEntity) (members : List Entity)
    (group : MemberKind × Text) : landmarksOf (groupOutline s page t members group) =
      (members.filter (·.kind = .member group.1)).map (.ofMember page t) := by
  have hkind : (fun e : Entity => decide (e.category = .member group.1)) =
      fun e => decide (e.kind = .member group.1) := by
    funext e
    rw [Entity.kind]
    cases e.category <;> simp
  rw [groupOutline, hkind]
  split
  · rename_i hnone
    rw [List.isEmpty_iff.1 hnone]
    rfl
  · simp only [landmarksOf_title, landmarksOf_flatMap, landmarksOf_memberOutline]
    exact (List.map_eq_flatMap ..).symm

/-- The groups have all members that are listed by kind. -/
lemma landmarksOf_typeOutline {t : TypeEntity} {members : List Entity}
    (h : (s.view.membersOf t.qualifiedName).filterMap s.model.find? = byKind members) :
    landmarksOf (typeOutline s settings page t) =
      s.model.typeLandmarks s.view settings page t := by
  have hgroups : (memberGroups.flatMap fun group =>
      ((byKind members).filter (·.kind = .member group.1)).map (Landmark.ofMember page t)) =
      (byKind members).map (.ofMember page t) := by
    conv_rhs => rw [← byKind_byKind members, byKind, List.map_flatMap]
    rfl
  simp only [typeOutline, h, landmarksOf_append, landmarksOf_landmark, landmarksOf_titles,
    landmarksOf_flatMap, landmarksOf_groupOutline, hgroups, Model.typeLandmarks]
  simp

end Page

end ApiDocs
