import ApiDocs.Proofs.Alike
import ApiDocs.Proofs.Lookup
import ApiDocs.Resolution

/-!
# Resolving references

In a consistent model every reference can be resolved. Since a reference is kept under the entity
that owns it, what it resolves to does not depend on the order of the entities, and alike models
resolve their references alike.
-/

namespace ApiDocs

/-! ### External packages -/

namespace Settings

lemma liesInAny_ok (s : Text) (packages : List Text) :
    ∃ b, liesInAny s (packages.map .text) = .ok b := by
  induction packages with
  | nil => exact ⟨false, rfl⟩
  | cons p packages ih =>
    rw [List.map_cons, liesInAny]
    split
    · exact ⟨true, rfl⟩
    · exact ih

/-- With a list of texts for the external packages, it is known of every text whether it lies in
one of them. -/
lemma isExternal_ok {settings : Settings} {packages : List Text}
    (h : settings.get? "external_packages" = some (.list (packages.map .text)))
    (reference : Text) : ∃ b, settings.isExternal reference = .ok b := by
  have hitems : (settings.get "external_packages").givenItems = .ok (packages.map .text) := by
    rw [get, h, Option.getD_some, Value.givenItems]
    split
    · rfl
    · rename_i hgiven
      have hnil : packages = [] := by simpa [Value.isGiven] using hgiven
      rw [hnil]
      rfl
  rw [isExternal, hitems, ok_bind]
  exact liesInAny_ok reference packages

end Settings

namespace Model

variable {m m' : Model}

/-! ### The member of one type -/

lemma preference_eq {e : Entity} (h : e.kind.isMember = true) :
    preference e = .ok (if e.isField then 0 else 1) := by
  rw [Entity.kind] at h
  rw [preference, Entity.isField]
  cases hc : e.category with
  | package => rw [hc] at h; cases h
  | type info => rw [hc] at h; cases h
  | member k => cases k <;> rfl

/-- The first field, or else the first entity. -/
def fieldOrFirst (es : List Entity) : Option Entity := (es.find? Entity.isField).or es.head?

/-- Of entities numbered in their order the first field is the best, or else the first one. -/
lemma best_map_rank {es : List Entity} (hindex : es.Pairwise (·.index < ·.index)) :
    best (es.map fun e => (if e.isField then 0 else 1, e)) =
      (fieldOrFirst es).map fun e => (if e.isField then 0 else 1, e) := by
  induction es with
  | nil => rfl
  | cons e es ih =>
    obtain ⟨hfirst, hrest⟩ := List.pairwise_cons.1 hindex
    rw [List.map_cons, best, ih hrest, fieldOrFirst, fieldOrFirst]
    cases hf : es.find? Entity.isField with
    | some f =>
      have hfield : f.isField = true := List.find?_some hf
      have hindex : ¬ f.index < e.index := by
        have hlt := hfirst f (List.mem_of_find?_eq_some hf)
        omega
      cases he : e.isField <;> simp [ranksBefore, he, hfield, hindex, hf]
    | none =>
      cases es with
      | nil => cases he : e.isField <;> simp [he]
      | cons o es =>
        have hother : o.isField = false := by
          simpa using List.find?_eq_none.1 hf o (List.mem_cons_self ..)
        have hindex : ¬ o.index < e.index := by
          have hlt := hfirst o (List.mem_cons_self ..)
          omega
        cases he : e.isField <;> simp [ranksBefore, he, hother, hindex, hf]

/-- The member that is selected of a type: the first field that matches, or else the first match. -/
def selected? (m : Model) (type name : Text) (parameters : Option (List Text)) : Option Entity :=
  fieldOrFirst ((m.membersOf type).filter (memberMatches name parameters))

lemma mem_of_selected? {type name : Text} {parameters : Option (List Text)} {e : Entity}
    (h : m.selected? type name parameters = some e) :
    e ∈ m.membersOf type ∧ memberMatches name parameters e = true := by
  apply List.mem_filter.1
  rcases Option.or_eq_some_iff.1 h with hfield | ⟨-, hfirst⟩
  · exact List.mem_of_find?_eq_some hfield
  · exact List.mem_of_head? hfirst

lemma selected?_eq_none_iff {type name : Text} {parameters : Option (List Text)} :
    m.selected? type name parameters = none ↔
      ∀ e ∈ m.membersOf type, ¬ memberMatches name parameters e = true := by
  rw [← List.filter_eq_nil_iff, selected?, fieldOrFirst, Option.or_eq_none_iff,
    List.head?_eq_none_iff]
  constructor
  · exact And.right
  · intro hnil
    rw [hnil]
    exact ⟨rfl, rfl⟩

section

variable (h : m.Consistent)

include h

lemma membersOf_eq_nil_or_membersIn (type : Text) :
    m.membersOf type = [] ∨ m.membersOf type = m.membersIn type := by
  cases ht : m.findType? type with
  | none => exact .inl (by rw [membersOf, ht])
  | some t =>
    obtain ⟨hmem, rfl⟩ := h.findType?_eq_some_iff.1 ht
    exact .inr (h.membersOf_eq hmem)

lemma isMember_of_mem_membersOf {type : Text} : ∀ e ∈ m.membersOf type, e.kind.isMember = true := by
  intro e he
  rcases membersOf_eq_nil_or_membersIn h type with hnone | heq
  · rw [hnone] at he
    cases he
  · rw [heq] at he
    exact isMember_of_mem_membersIn e he

lemma membersOf_numbered (type : Text) : (m.membersOf type).Pairwise (·.index < ·.index) := by
  rcases membersOf_eq_nil_or_membersIn h type with hnone | heq
  · rw [hnone]
    exact .nil
  · rw [heq]
    exact h.numbered type

lemma matchIn_eq (type name : Text) (parameters : Option (List Text)) :
    m.matchIn type name parameters =
      .ok ((m.selected? type name parameters).map (·.qualifiedName)) := by
  have hranked : ∀ e ∈ (m.membersOf type).filter (memberMatches name parameters),
      (fun e => (·, e) <$> preference e) e = .ok (if e.isField then 0 else 1, e) := by
    intro e he
    have hmember := isMember_of_mem_membersOf h e (List.mem_filter.1 he).1
    simp only [preference_eq hmember, map_ok]
  rw [matchIn]
  simp only [mapM_ok hranked, ok_bind]
  rw [best_map_rank ((membersOf_numbered h type).filter _), Option.map_map, selected?]
  rfl

/-! ### Resolution succeeds -/

lemma firstMatch_eq (name : Text) (parameters : Option (List Text)) (types : List Text) :
    m.firstMatch name parameters types = .ok (types.findSome? fun type =>
      (m.selected? type name parameters).map (·.qualifiedName)) := by
  induction types with
  | nil => rfl
  | cons type types ih =>
    rw [firstMatch, matchIn_eq h, ok_bind, List.findSome?_cons]
    cases m.selected? type name parameters with
    | some e => rfl
    | none => exact ih

lemma lookupMember_ok (start : Option TypeEntity) (name : Text) (parameters : Option (List Text)) :
    ∃ found, m.lookupMember start name parameters = .ok found := by
  cases start with
  | none => exact ⟨none, rfl⟩
  | some t =>
    rw [lookupMember]
    split
    · exact ⟨none, rfl⟩
    · exact ⟨_, firstMatch_eq h _ _ _⟩

lemma lookup_ok (owner : Entity) (text : Text) : ∃ found, m.lookup owner text = .ok found := by
  rw [lookup]
  split
  · split
    · exact lookupMember_ok h _ _ _
    · exact ⟨none, rfl⟩
  · split
    · exact lookupMember_ok h _ _ _
    · obtain ⟨found, hok⟩ := lookupMember_ok h (m.enclosingType? owner)
        (Name.MemberReference.ofText text).member none
      rw [hok, ok_bind]
      cases found with
      | some n => exact ⟨some n, rfl⟩
      | none => exact ⟨_, rfl⟩

/-- Every text of a reference resolves to something. -/
lemma resolve_ok (owner : Entity) (text : Text) :
    ∃ outcome, m.resolve owner text = .ok outcome := by
  rw [resolve]
  split
  · exact ⟨_, rfl⟩
  · obtain ⟨found, hok⟩ := lookup_ok h owner (Text.trim text)
    rw [hok, ok_bind]
    cases found with
    | some n => exact ⟨_, rfl⟩
    | none => exact ⟨_, rfl⟩

end

/-! ### Resolution in alike models -/

namespace Alike

variable (h : m.Alike m') (hm : m.Consistent) (hm' : m'.Consistent)

include h hm hm'

lemma has (n : Text) : m.has n = m'.has n := by
  rw [Model.has, Model.has, ← Option.isSome_map (f := Entity.unnumbered), h.find? hm hm',
    Option.isSome_map]

lemma enclosingType? {owner owner' : Entity} (ho : owner.unnumbered = owner'.unnumbered) :
    (m.enclosingType? owner).map TypeEntity.unnumbered =
      (m'.enclosingType? owner').map TypeEntity.unnumbered := by
  have htype := congrArg Entity.asType? ho
  rw [Entity.asType?_unnumbered, Entity.asType?_unnumbered] at htype
  have hscope : owner.scope = owner'.scope :=
      Entity.eq_of_unnumbered_eq (·.scope) (fun _ => rfl) ho
  rw [Model.enclosingType?, Model.enclosingType?]
  rcases map_eq_map_cases htype with ⟨ht, ht'⟩ | ⟨t, t', ht, ht', heq⟩
  · rw [ht, ht', hscope]
    exact h.findType? hm hm' _
  · rw [ht, ht']
    exact congrArg some heq

lemma enclosingPackage {owner owner' : Entity} (ho : owner.unnumbered = owner'.unnumbered) :
    m.enclosingPackage owner = m'.enclosingPackage owner' := by
  have hcategory : owner.category = owner'.category :=
      Entity.eq_of_unnumbered_eq (·.category) (fun _ => rfl) ho
  have hname : owner.qualifiedName = owner'.qualifiedName :=
      Entity.eq_of_unnumbered_eq (·.qualifiedName) (fun _ => rfl) ho
  rw [Model.enclosingPackage, Model.enclosingPackage]
  rcases map_eq_map_cases (h.enclosingType? hm hm' ho) with ⟨ht, ht'⟩ | ⟨t, t', ht, ht', heq⟩
  · rw [ht, ht', hcategory, hname]
  · have hinfo : t.info = t'.info :=
      TypeEntity.eq_of_unnumbered_eq (·.info) (fun _ => rfl) heq
    rw [ht, ht']
    simp only [hinfo]

lemma lineage (type : Text) : m.lineage type = m'.lineage type := by
  rw [Model.lineage, Model.lineage, h.ancestorsOf hm hm']

lemma firstMatch (name : Text) (parameters : Option (List Text)) (types : List Text) :
    m.firstMatch name parameters types = m'.firstMatch name parameters types := by
  induction types with
  | nil => rfl
  | cons type types ih =>
    have hmatch : m.matchIn type name parameters = m'.matchIn type name parameters := by
      rw [matchIn, matchIn, h.membersOf hm hm']
    rw [Model.firstMatch, Model.firstMatch, hmatch, ih]

lemma lookupMember {start start' : Option TypeEntity}
    (hstart : start.map TypeEntity.unnumbered = start'.map TypeEntity.unnumbered) (name : Text)
    (parameters : Option (List Text)) :
    m.lookupMember start name parameters = m'.lookupMember start' name parameters := by
  rcases map_eq_map_cases hstart with ⟨rfl, rfl⟩ | ⟨t, t', rfl, rfl, heq⟩
  · rfl
  · rw [Model.lookupMember, Model.lookupMember]
    have hname : t.qualifiedName = t'.qualifiedName :=
      TypeEntity.eq_of_unnumbered_eq (·.qualifiedName) (fun _ => rfl) heq
    simp only [hname, h.lineage hm hm', h.firstMatch hm hm']

lemma typesInPackage (package : Text) :
    (m.typesInPackage package).map TypeEntity.unnumbered =
      (m'.typesInPackage package).map TypeEntity.unnumbered := by
  rw [Model.typesInPackage, Model.typesInPackage, h.packageTypes hm hm', List.map_filterMap,
    List.map_filterMap]
  exact List.filterMap_congr fun n _ => h.findType? hm hm' n

lemma lookupType (name : Text) {enclosing enclosing' : Option TypeEntity}
    (he : enclosing.map TypeEntity.unnumbered = enclosing'.map TypeEntity.unnumbered)
    (package : Text) : (m.lookupType name enclosing package).map TypeEntity.unnumbered =
      (m'.lookupType name enclosing' package).map TypeEntity.unnumbered := by
  have hnested : enclosing.map (fun t => m.lineage t.qualifiedName) =
      enclosing'.map fun t => m'.lineage t.qualifiedName := by
    have hmap := congrArg (Option.map fun t : TypeEntity => m.lineage t.qualifiedName) he
    simp only [Option.map_map, Function.comp_def, TypeEntity.qualifiedName_unnumbered] at hmap
    rw [hmap]
    simp only [h.lineage hm hm']
  have hfind (types : List TypeEntity) : (types.find? (typeMatches name)).map
      TypeEntity.unnumbered = (types.map TypeEntity.unnumbered).find? (typeMatches name) := by
    rw [List.find?_map]
    rfl
  rw [Model.lookupType, Model.lookupType]
  simp only [Option.map_or, List.map_findSome?, Function.comp_def, hfind, hnested,
    h.typesInPackage hm hm', h.findType? hm hm']

lemma lookup {owner owner' : Entity} (ho : owner.unnumbered = owner'.unnumbered) (text : Text) :
    m.lookup owner text = m'.lookup owner' text := by
  have henclosing := h.enclosingType? hm hm' ho
  have htype (name package : Text) :=
    map_eq_map_cases (h.lookupType hm hm' name henclosing package)
  rw [Model.lookup, Model.lookup, h.enclosingPackage hm hm' ho]
  split
  · rcases htype (Name.MemberReference.ofText text).type (m'.enclosingPackage owner') with
      ⟨ht, ht'⟩ | ⟨t, t', ht, ht', heq⟩
    · rw [ht, ht']
    · rw [ht, ht']
      apply h.lookupMember hm hm'
      rw [Option.map_some, Option.map_some, heq]
  · split
    · exact h.lookupMember hm hm' henclosing _ _
    · rw [h.lookupMember hm hm' henclosing]
      rcases htype (Name.MemberReference.ofText text).member (m'.enclosingPackage owner') with
        ⟨ht, ht'⟩ | ⟨t, t', ht, ht', heq⟩
      · rw [ht, ht']
      · have hname : t.qualifiedName = t'.qualifiedName :=
          TypeEntity.eq_of_unnumbered_eq (·.qualifiedName) (fun _ => rfl) heq
        rw [ht, ht', Option.map_some, Option.map_some, hname]

/-- The texts of references resolve alike. -/
lemma resolve {owner owner' : Entity} (ho : owner.unnumbered = owner'.unnumbered) (text : Text) :
    m.resolve owner text = m'.resolve owner' text := by
  rw [Model.resolve, Model.resolve]
  simp only [h.has hm hm', h.lookup hm hm' ho]

end Alike

/-! ### What references resolve to -/

/-- What a text resolves to, seen from an entity. -/
def outcome (m : Model) (owner : Entity) (text : Text) : Resolution :=
  match m.resolve owner text with
  | .ok outcome => outcome
  | .error _ => .unresolved text

/-- The references of an entity, last one first, with what they resolve to. -/
def outcomes (m : Model) (e : Entity) : List (Site × Resolution) :=
  (e.references.map fun r => (r.site, m.outcome e r.text)).reverse

lemma resolve_eq (h : m.Consistent) (owner : Entity) (text : Text) :
    m.resolve owner text = .ok (m.outcome owner text) := by
  obtain ⟨outcome, hok⟩ := resolve_ok h owner text
  rw [Model.outcome, hok]

/-- What a text resolves to is in the model, or else it is the trimmed text. -/
lemma outcome_sound (h : m.Consistent) (owner : Entity) (text : Text) :
    (∃ t ∈ m.names, m.outcome owner text = .link t) ∨
      m.outcome owner text = .unresolved (Text.trim text) :=
  resolve_sound (resolve_eq h owner text)

/-! ### Resolving one reference after the other -/

/-- How the report lists a reference that links to an entity. -/
def resolvedEntry (m : Model) (p : Entity × Reference) : Option (Text × Text × Text) :=
  match m.outcome p.1 p.2.text with
  | .link target => some (p.1.qualifiedName, p.2.text, target)
  | .unresolved _ => none

/-- The references that link to no entity. -/
def unresolvedAmong (m : Model) (refs : List (Entity × Reference)) : List (Entity × Reference) :=
  refs.filter fun p =>
    match m.outcome p.1 p.2.text with
    | .link _ => false
    | .unresolved _ => true

end Model

/-- What is recorded after references are resolved, where it is known which texts are external. -/
def Resolving.after (m : Model) (external : Text → Bool) (s : Resolving)
    (refs : List (Entity × Reference)) : Resolving where
  resolutions :=
    ⟨(refs.map fun p => (p.2.site, m.outcome p.1 p.2.text)).reverse ++ s.resolutions.entries⟩
  report :=
    { resolved := s.report.resolved ++ refs.filterMap m.resolvedEntry
      unresolved := s.report.unresolved ++
        (m.unresolvedAmong refs).map fun p => (p.1.qualifiedName, Text.trim p.2.text) }
  notes := s.notes ++
    (m.unresolvedAmong refs).map fun p =>
      .unresolved (external p.2.text) p.2.text p.1.qualifiedName

namespace Model

variable {m m' : Model}

section

variable (h : m.Consistent) {settings : Settings} {external : Text → Bool}
  (hexternal : ∀ text, settings.isExternal text = .ok (external text))

lemma after_nil (s : Resolving) : s.after m external [] = s := by
  simp [Resolving.after, unresolvedAmong]

lemma after_cons (s : Resolving) (p : Entity × Reference) (refs : List (Entity × Reference)) :
    s.after m external (p :: refs) = (s.after m external [p]).after m external refs := by
  have hunresolved : m.unresolvedAmong (p :: refs) =
      m.unresolvedAmong [p] ++ m.unresolvedAmong refs := by
    rw [← List.singleton_append, unresolvedAmong, List.filter_append]
    rfl
  have hresolved : (p :: refs).filterMap m.resolvedEntry =
      [p].filterMap m.resolvedEntry ++ refs.filterMap m.resolvedEntry := by
    rw [← List.singleton_append, List.filterMap_append]
  simp only [Resolving.after, hunresolved, hresolved, List.map_append, List.append_assoc,
    List.map_cons, List.map_nil, List.reverse_cons, List.reverse_nil, List.nil_append,
    List.singleton_append]

include h hexternal

/-- One step records what a reference resolves to. -/
lemma each_cons (s : Resolving) (p : Entity × Reference) (refs : List (Entity × Reference)) :
    Resolving.each m settings s (p :: refs) =
      Resolving.each m settings (s.after m external [p]) refs := by
  obtain ⟨owner, r⟩ := p
  have hnote : (s.record owner r (m.outcome owner r.text)).noteOutcome settings owner r
      (m.outcome owner r.text) = .ok (s.after m external [(owner, r)]) := by
    rcases outcome_sound h owner r.text with ⟨t, -, ht⟩ | hunresolved
    · simp [ht, Resolving.noteOutcome, Resolving.record, Resolving.after, Report.add,
        Resolutions.set, resolvedEntry, unresolvedAmong]
    · rw [hunresolved, Resolving.noteOutcome, hexternal, ok_bind]
      simp [hunresolved, Resolving.record, Resolving.after, Report.add, Resolutions.set,
        resolvedEntry, unresolvedAmong, pure, Except.pure]
  rw [Resolving.each, resolve_eq h]
  simp only [hnote]

/-- A run records what every reference resolves to. -/
theorem each_eq (s : Resolving) (refs : List (Entity × Reference)) :
    Resolving.each m settings s refs = (s.after m external refs, none) := by
  induction refs generalizing s with
  | nil => rw [after_nil]; rfl
  | cons p refs ih => rw [each_cons h hexternal, ih, ← after_cons]

omit hexternal in
/-- A run that comes to its end has recorded what every reference resolves to, whatever is said of
external texts. -/
lemma resolutions_of_each (external : Text → Bool) {s s' : Resolving}
    {refs : List (Entity × Reference)} (heach : Resolving.each m settings s refs = (s', none)) :
    s'.resolutions = (s.after m external refs).resolutions := by
  induction refs generalizing s with
  | nil =>
    cases heach
    rw [after_nil]
  | cons p refs ih =>
    obtain ⟨owner, r⟩ := p
    rw [Resolving.each, resolve_eq h] at heach
    simp only at heach
    split at heach
    · cases heach
    · rename_i next hnote
      have hnext : next.resolutions = (s.after m external [(owner, r)]).resolutions := by
        cases houtcome : m.outcome owner r.text with
        | link t =>
          rw [houtcome] at hnote
          cases hnote
          simp [Resolving.record, Resolving.after, Resolutions.set, houtcome]
        | unresolved text =>
          rw [houtcome, Resolving.noteOutcome] at hnote
          obtain ⟨_, -, hnext⟩ := bind_eq_ok_iff.1 hnote
          cases hnext
          simp [Resolving.record, Resolving.after, Resolutions.set, houtcome]
      rw [ih heach, after_cons, Resolving.after, hnext]
      rfl

end

/-- In a list of blocks, each with the sites of one owner, a site is found in the block of its
owner. -/
lemma lookup_flatMap_owned {block : Entity → List (Site × Resolution)} {es : List Entity}
    (hdistinct : (es.map (·.qualifiedName)).Nodup)
    (howned : ∀ e ∈ es, ∀ p ∈ block e, p.1.owner = e.qualifiedName) (site : Site) :
    (es.flatMap block).lookup site =
      (es.find? (·.qualifiedName = site.owner)).bind fun e => (block e).lookup site := by
  have hnone : ∀ e ∈ es, e.qualifiedName ≠ site.owner → (block e).lookup site = none := by
    intro e he hne
    rw [List.lookup_eq_none_iff]
    intro p hp
    rw [bne_iff_ne]
    rintro rfl
    exact hne (howned e he p hp).symm
  induction es with
  | nil => rfl
  | cons e es ih =>
    rw [List.map_cons, List.nodup_cons] at hdistinct
    rw [List.flatMap_cons, List.lookup_append]
    by_cases hname : e.qualifiedName = site.owner
    · have hrest : (es.flatMap block).lookup site = none := by
        rw [List.lookup_eq_none_iff]
        intro p hp
        obtain ⟨e', he', hp⟩ := List.mem_flatMap.1 hp
        rw [bne_iff_ne]
        rintro rfl
        have howner := howned e' (List.mem_cons_of_mem _ he') p hp
        exact hdistinct.1 (List.mem_map.2 ⟨e', he', by rw [hname, howner]⟩)
      rw [hrest, List.find?_cons_of_pos (by simpa using hname)]
      simp
    · rw [hnone e (List.mem_cons_self ..) hname, List.find?_cons_of_neg (by simpa using hname),
        ih hdistinct.2 (fun e' he' => howned e' (List.mem_cons_of_mem _ he'))
          fun e' he' => hnone e' (List.mem_cons_of_mem _ he')]
      rfl

/-- All references of a consistent model are resolved, and each is kept under its owner. -/
theorem resolveAll_ok (h : m.Consistent) {settings : Settings}
    (hexternal : ∀ text, ∃ b, settings.isExternal text = .ok b) :
    ∃ s, m.resolveAll settings {} = (s, none) ∧ ∀ r, s.resolutions.get? r =
      (m.find? r.site.owner).bind fun e => (m.outcomes e).lookup r.site := by
  obtain ⟨external, hexternal⟩ := Classical.skolem.1 hexternal
  refine ⟨_, by rw [resolveAll, each_eq h hexternal], fun r => ?_⟩
  have hblocks : (Resolving.after m external {} m.references).resolutions.entries =
      m.entities.reverse.flatMap m.outcomes := by
    rw [Resolving.after, references, List.map_flatMap, List.reverse_flatMap, List.append_nil]
    apply List.flatMap_congr
    intro e _
    rw [Function.comp_apply, outcomes, List.map_map]
    rfl
  have howned : ∀ e ∈ m.entities.reverse, ∀ p ∈ m.outcomes e, p.1.owner = e.qualifiedName := by
    intro e he p hp
    obtain ⟨r, hr, rfl⟩ := List.mem_map.1 (List.mem_reverse.1 hp)
    exact h.owned e (List.mem_reverse.1 he) r hr
  have hdistinct : (m.entities.reverse.map (·.qualifiedName)).Nodup := by
    rw [List.map_reverse, List.nodup_reverse]
    exact h.distinct
  have hfind (n : Text) : m.entities.reverse.find? (·.qualifiedName = n) = m.find? n := by
    ext1 e
    have hreverse :=
      find?_eq_some_iff (m := .ofEntities m.entities.reverse) hdistinct (n := n) (e := e)
    rw [find?_eq_some_iff h.distinct, ← List.mem_reverse]
    exact hreverse
  change (Resolving.after m external {} m.references).resolutions.entries.lookup r.site = _
  rw [hblocks, lookup_flatMap_owned hdistinct howned, hfind]

/-- Alike models resolve their references alike. -/
lemma Alike.outcomes (h : m.Alike m') (hm : m.Consistent) (hm' : m'.Consistent) (site : Site) :
    (m.find? site.owner).bind (fun e => (m.outcomes e).lookup site) =
      (m'.find? site.owner).bind fun e => (m'.outcomes e).lookup site := by
  rcases map_eq_map_cases (h.find? hm hm' site.owner) with ⟨he, he'⟩ | ⟨e, e', he, he', heq⟩
  · rw [he, he']
    rfl
  · have hrefs : e.references = e'.references :=
      Entity.eq_of_unnumbered_eq (·.references) (fun _ => rfl) heq
    have houtcome (text : Text) : m.outcome e text = m'.outcome e' text := by
      rw [outcome, outcome, h.resolve hm hm' heq]
    rw [he, he', Option.bind_some, Option.bind_some, Model.outcomes, Model.outcomes, hrefs]
    simp only [houtcome]

end Model

end ApiDocs
