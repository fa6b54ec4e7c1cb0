import ApiDocs.Proofs.AlikeViews
import ApiDocs.Proofs.Rendering

/-!
# Pages of alike sources

Pages show what is looked up in the model, the view and the resolutions. Where two sources agree on
all look-ups, up to the places of packages and types, every part of a page is the same, and so are
the documents made from them.
-/

namespace ApiDocs

/-! ### Lists up to an erasure -/

section

variable {α β ε : Type} {erase : α → α} {as as' : List α} (h : as.map erase = as'.map erase)

include h

lemma isEmpty_of_map_eq : as.isEmpty = as'.isEmpty := by
  rw [← List.isEmpty_map (f := erase), h, List.isEmpty_map]

lemma filter_of_map_eq {p : α → Bool} (hp : ∀ a, p (erase a) = p a) :
    (as.filter p).map erase = (as'.filter p).map erase := by
  have herase (as : List α) : (as.filter p).map erase = (as.map erase).filter p := by
    rw [List.filter_map]
    simp only [Function.comp_def, hp]
  rw [herase, herase, h]

lemma flatMap_of_map_eq {f f' : α → List β} (hf : ∀ a, f (erase a) = f a)
    (hf' : ∀ a, f a = f' a) : as.flatMap f = as'.flatMap f' := by
  have herase (as : List α) : as.flatMap f = (as.map erase).flatMap f := by
    rw [List.flatMap_map]
    simp only [hf]
  rw [herase, h, ← herase]
  exact List.flatMap_congr fun a _ => hf' a

lemma mapM_of_map_eq {f f' : α → Except ε β} (hf : ∀ a, f (erase a) = f a)
    (hf' : ∀ a, f a = f' a) : as.mapM f = as'.mapM f' := by
  have herase (as : List α) : as.mapM f = (as.map erase).mapM f := by
    rw [List.mapM_map]
    exact mapM_congr fun a _ => (hf a).symm
  rw [herase, h, ← herase]
  exact mapM_congr fun a _ => hf' a

lemma foldlM_of_map_eq {f f' : β → α → Except ε β} (hf : ∀ b a, f b (erase a) = f b a)
    (hf' : ∀ b a, f b a = f' b a) (b : β) : as.foldlM f b = as'.foldlM f' b := by
  have herase (as : List α) : as.foldlM f b = (as.map erase).foldlM f b := by
    rw [List.foldlM_map]
    simp only [hf]
  have hfun : f = f' := funext fun b => funext fun a => hf' b a
  rw [herase, h, ← herase, hfun]

end

/-! ### References -/

namespace Linking

/-- References link to the same entities, and these have the same targets. -/
structure Alike (l l' : Linking) : Prop where
  target? : ∀ r, l.resolutions.target? r = l'.resolutions.target? r
  targets : l.targets = l'.targets

namespace Alike

variable {l l' : Linking} (h : l.Alike l')

include h

lemma showReference (r : Reference) : l.showReference r = l'.showReference r := by
  rw [Linking.showReference, Linking.showReference, h.target?, h.targets]

lemma linkOr (name fallback : Text) : l.linkOr name fallback = l'.linkOr name fallback := by
  rw [Linking.linkOr, Linking.linkOr, h.targets]

lemma showLinks (ps : List (Comment.Piece Comment.InlineLink)) (rs : List Reference) :
    l.showLinks ps rs = l'.showLinks ps rs := by
  induction ps generalizing rs with
  | nil => rfl
  | cons p ps ih =>
    cases p with
    | point c => rw [Linking.showLinks, Linking.showLinks, ih]
    | hit link written =>
      cases rs with
      | nil => rw [Linking.showLinks, Linking.showLinks, ih]
      | cons r rs => rw [Linking.showLinks, Linking.showLinks, ih, h.showReference]

lemma showText (s : Text) (rs : List Reference) : l.showText s rs = l'.showText s rs := by
  rw [Linking.showText, Linking.showText, h.showLinks]

end Alike

end Linking

namespace Page

/-! ### Parts of pages -/

section

variable {l l' : Linking} (h : l.Alike l')

include h

lemma textLines_alike (d : MergedDoc) : textLines l d = textLines l' d := by
  simp only [textLines, h.showText]

lemma tagText_alike (t : Tag) : tagText l t = tagText l' t := by
  rw [tagText, tagText, h.showText]

lemma deprecationLines_alike (d : MergedDoc) : deprecationLines l d = deprecationLines l' d := by
  simp only [deprecationLines, tagText_alike h]

lemma labelledLines_alike (d : MergedDoc) : labelledLines l d = labelledLines l' d := by
  simp only [labelledLines, tagText_alike h]

lemma seeAlsoLines_alike (level : Nat) (d : MergedDoc) :
    seeAlsoLines l level d = seeAlsoLines l' level d := by
  simp only [seeAlsoLines, tagText_alike h, h.showReference]

lemma parameterLines_alike (level : Nat) (e : Entity) (d : MergedDoc) :
    parameterLines l level e d = parameterLines l' level e d := by
  have hrow : parameterRow l d = parameterRow l' d := by
    funext p
    simp only [parameterRow, funext (tagText_alike h)]
  simp only [parameterLines, hrow]

lemma resultLines_alike (level : Nat) (e : Entity) (d : MergedDoc) :
    resultLines l level e d = resultLines l' level e d := by
  simp only [resultLines, funext (tagText_alike h)]

lemma throwsLines_alike (level : Nat) (d : MergedDoc) :
    throwsLines l level d = throwsLines l' level d := by
  simp only [throwsLines, tagText_alike h, h.showReference]

lemma sourceLines_alike (d : MergedDoc) : sourceLines l d = sourceLines l' d := by
  simp only [sourceLines, h.linkOr]

lemma frontMatter_alike (name : Text) : frontMatter l name = frontMatter l' name := by
  rw [frontMatter, frontMatter, h.targets]

lemma referenceTree_alike (r : Reference) : referenceTree l r = referenceTree l' r := by
  rw [referenceTree, referenceTree, h.target?, h.targets]

lemma tagTree_alike (t : Tag) : tagTree l t = tagTree l' t := by
  simp only [tagTree, funext (referenceTree_alike h)]

end

/-- Sources in which all look-ups give the same, up to the places of entities. -/
structure Source.Alike (s s' : Source) : Prop where
  find? : ∀ n, (s.model.find? n).map Entity.unnumbered = (s'.model.find? n).map Entity.unnumbered
  size : s.model.entities.length = s'.model.entities.length
  view : s.view.Alike s'.view
  linking : s.linking.Alike s'.linking
  language : s.language = s'.language

variable {s s' : Source} (h : s.Alike s')

include h

lemma findType?_alike (n : Text) : (s.model.findType? n).map TypeEntity.unnumbered =
    (s'.model.findType? n).map TypeEntity.unnumbered := by
  rw [Model.map_findType?, Model.map_findType?, h.find?]

/-- The entities of names are the same up to their places. -/
lemma filterMap_find?_alike (names : List Text) :
    (names.filterMap s.model.find?).map Entity.unnumbered =
      (names.filterMap s'.model.find?).map Entity.unnumbered := by
  rw [List.map_filterMap, List.map_filterMap]
  exact List.filterMap_congr fun n _ => h.find? n

/-! ### Pages of types -/

lemma superclassPath_alike (met : List Text) (current : Option Text) (steps : Nat) :
    superclassPath s.model met current steps = superclassPath s'.model met current steps := by
  induction steps generalizing met current with
  | zero => rfl
  | succ steps ih =>
    cases current with
    | none => rfl
    | some name =>
      have hnext : (s.model.findType? name).bind (·.info.supertype) =
          (s'.model.findType? name).bind (·.info.supertype) := by
        have hbind := congrArg (Option.bind · (·.info.supertype)) (findType?_alike h name)
        simpa only [Option.bind_map, Function.comp_def, TypeEntity.info_unnumbered] using hbind
      rw [superclassPath, superclassPath, hnext, ih]

lemma inheritanceLines_alike (level : Nat) (t : TypeEntity) :
    inheritanceLines s level t = inheritanceLines s' level t := by
  have hpath : superclasses s.model t = superclasses s'.model t := by
    rw [superclasses, superclasses, h.size, superclassPath_alike h]
  simp only [inheritanceLines, hpath, h.linking.linkOr]

lemma interfaceLines_alike (level : Nat) (t : TypeEntity) :
    interfaceLines s level t = interfaceLines s' level t := by
  simp only [interfaceLines, h.linking.linkOr]

lemma memberLines_alike (level : Nat) (e : Entity) :
    memberLines s level e = memberLines s' level e := by
  simp only [memberLines, h.view.doc, h.language, parameterLines_alike h.linking,
    deprecationLines_alike h.linking, textLines_alike h.linking, sourceLines_alike h.linking,
    resultLines_alike h.linking, throwsLines_alike h.linking, labelledLines_alike h.linking,
    seeAlsoLines_alike h.linking]

lemma groupLines_alike (level : Nat) {members members' : List Entity}
    (hmembers : members.map Entity.unnumbered = members'.map Entity.unnumbered)
    (group : MemberKind × Text) :
    groupLines s level members group = groupLines s' level members' group := by
  have hgroup := filter_of_map_eq (p := fun e => e.category = .member group.1) hmembers
    fun e => by rw [Entity.category_unnumbered]
  have hsections := mapM_of_map_eq hgroup (f := memberLines s (level + 1)) (fun _ => rfl)
    (memberLines_alike h _)
  simp only [groupLines, hsections, isEmpty_of_map_eq hgroup]

lemma typeSection_alike (level : Nat) (t : TypeEntity) :
    typeSection s level t = typeSection s' level t := by
  have hgroups : groupLines s (level + 1)
      ((s.view.membersOf t.qualifiedName).filterMap s.model.find?) = groupLines s' (level + 1)
      ((s'.view.membersOf t.qualifiedName).filterMap s'.model.find?) := by
    funext group
    rw [h.view.membersOf]
    exact groupLines_alike h _ (filterMap_find?_alike h _) group
  simp only [typeSection, hgroups, h.view.doc, h.language, h.linking.targets,
    deprecationLines_alike h.linking, textLines_alike h.linking, inheritanceLines_alike h,
    interfaceLines_alike h, labelledLines_alike h.linking, seeAlsoLines_alike h.linking]

lemma typePage_alike (t : TypeEntity) : typePage s t = typePage s' t := by
  rw [typePage, typePage, typeSection_alike h, frontMatter_alike h.linking]

/-! ### Pages of packages -/

lemma packageHead_alike (package : Text) : packageHead s package = packageHead s' package := by
  rw [packageHead, packageHead, h.view.doc, textLines_alike h.linking]

lemma typesOf_alike (package : Text) : (typesOf s package).map TypeEntity.unnumbered =
    (typesOf s' package).map TypeEntity.unnumbered := by
  rw [typesOf, typesOf, h.view.typesOf, List.map_filterMap, List.map_filterMap]
  exact List.filterMap_congr fun n _ => findType?_alike h n

lemma typeEntry_alike (t : TypeEntity) : typeEntry s t = typeEntry s' t := by
  simp only [typeEntry, h.view.doc, h.linking.targets, h.linking.showText]

lemma flavorLines_alike {types types' : List TypeEntity}
    (htypes : types.map TypeEntity.unnumbered = types'.map TypeEntity.unnumbered)
    (flavor : Text × Text) : flavorLines s types flavor = flavorLines s' types' flavor := by
  have hmatching := filter_of_map_eq (p := fun t => t.info.flavor = flavor.1) htypes
    fun t => by rw [TypeEntity.info_unnumbered]
  have hentries := flatMap_of_map_eq hmatching (f := typeEntry s) (fun _ => rfl) (typeEntry_alike h)
  simp only [flavorLines, hentries, isEmpty_of_map_eq hmatching]

lemma landingPage_alike (package : Text) : landingPage s package = landingPage s' package := by
  have hflavors := funext (flavorLines_alike h (typesOf_alike h package))
  rw [landingPage, landingPage, packageHead_alike h, hflavors]

lemma packagePage_alike (package : Text) : packagePage s package = packagePage s' package := by
  have hsections := mapM_of_map_eq (typesOf_alike h package) (f := typeSection s 2) (fun _ => rfl)
    (typeSection_alike h 2)
  simp only [packagePage, hsections, frontMatter_alike h.linking, packageHead_alike h]

/-! ### The data document -/

lemma entityFields_alike (e : Entity) : entityFields s e = entityFields s' e := by
  simp only [entityFields, h.view.doc, h.linking.targets, funext (referenceTree_alike h.linking),
    funext (tagTree_alike h.linking)]

lemma memberTree_alike (e : Entity) : memberTree s e = memberTree s' e := by
  rw [memberTree, memberTree, entityFields_alike h]

lemma typeTree_alike (e : Entity) : typeTree s e = typeTree s' e := by
  have hmembers := mapM_of_map_eq (filterMap_find?_alike h (s'.view.membersOf e.qualifiedName))
    (f := memberTree s) (fun _ => rfl) (memberTree_alike h)
  rw [typeTree, typeTree, entityFields_alike h, h.view.membersOf, hmembers]

lemma packageTree_alike (e : Entity) : packageTree s e = packageTree s' e := by
  have htypes := mapM_of_map_eq (filterMap_find?_alike h (s'.view.typesOf e.qualifiedName))
    (f := typeTree s) (fun _ => rfl) (typeTree_alike h)
  rw [packageTree, packageTree, entityFields_alike h, h.view.typesOf, htypes]

lemma dataDocument_alike : dataDocument s = dataDocument s' := by
  have hpackages := mapM_of_map_eq (filterMap_find?_alike h s'.view.packages)
    (f := packageTree s) (fun _ => rfl) (packageTree_alike h)
  rw [dataDocument, dataDocument, tree, tree, h.view.packages, hpackages]

end Page

/-! ### Documents -/

namespace Documents

open Page

variable {s s' : Source} (h : s.Alike s')

include h

lemma addType_alike (docs : Documents) (t : TypeEntity) : addType s docs t = addType s' docs t := by
  rw [addType, addType, typePage_alike h, fileOf, fileOf, h.linking.targets]

lemma addPackage_alike (settings : Settings) (docs : Documents) (package : Text) :
    addPackage s settings docs package = addPackage s' settings docs package := by
  have htypes := foldlM_of_map_eq (typesOf_alike h package) (f := addType s) (fun _ _ => rfl)
    (addType_alike h)
  simp only [addPackage, htypes, packagePage_alike h, landingPage_alike h, fileOf,
    h.linking.targets]

/-- Alike sources have the same documents. -/
theorem ofSource_alike (settings : Settings) : ofSource s settings = ofSource s' settings := by
  have hpackages : addPackage s settings = addPackage s' settings := by
    funext docs package
    exact addPackage_alike h settings docs package
  have hhome : homePage s.linking s.view = homePage s'.linking s'.view := by
    simp only [homePage, h.view.packages, h.linking.targets]
  rw [ofSource, ofSource, dataDocument_alike h, hpackages, hhome, h.view.packages]

end Documents

end ApiDocs
