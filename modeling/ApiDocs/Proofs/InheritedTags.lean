import ApiDocs.Proofs.Donors
import ApiDocs.Proofs.Precedence
import ApiDocs.Proofs.ShownReferences

/-!
# Inherited tags

A method keeps its tags and takes what it lacks from the members it overrides, nearest first:
parameters one by one and by position, the result, and the exceptions all together. What it takes
has been merged before. As it overrides what the members it overrides override, it documents
exactly the parameters that it or one of them documents.
-/

namespace ApiDocs

open Text

/-- A tag documents the parameter of a member at a position. -/
def Tag.Documents (t : Tag) (e : Entity) (i : Nat) : Prop :=
  t.kind = "param" ∧ e.parameterNames[i]? = some t.name

/-- The tags that a method is given are those it lacks, as the nearest overridden members that have
them say it. -/
structure Completes (e : Entity) (above : List Overridden) (added : List Tag) : Prop where
  kinds : ∀ t ∈ added, t.kind = "param" ∨ t.kind = "return" ∨ t.kind = "throws"
  params_iff : ∀ name, name ∈ (tagsOf "param" added).map (·.name) ↔
    ∃ i, e.parameterNames[i]? = some name ∧ (∀ t ∈ e.tags, ¬ t.Documents e i) ∧
      ∃ o ∈ above, ∃ t ∈ o.2.tags, t.Documents o.1 i
  params_once : ((tagsOf "param" added).map (·.name)).Nodup
  params_nearest : ∀ i, ∀ t ∈ added, t.Documents e i →
    ∃ o, First (fun o => ∃ s ∈ o.2.tags, s.Documents o.1 i) above o ∧
      ∃ s, First (·.Documents o.1 i) o.2.tags s ∧ t = { s with name := t.name }
  result_iff : tagsOf "return" added ≠ [] ↔ tagsOf "return" e.tags = [] ∧ e.returnType ≠ "void" ∧
    ∃ o ∈ above, tagsOf "return" o.2.tags ≠ []
  result_nearest : tagsOf "return" added ≠ [] →
    ∃ o, First (fun o => tagsOf "return" o.2.tags ≠ []) above o ∧
      ∃ t, (tagsOf "return" o.2.tags).head? = some t ∧ tagsOf "return" added = [t]
  throws_iff : tagsOf "throws" added ≠ [] ↔ tagsOf "throws" e.tags = [] ∧
    ∃ o ∈ above, tagsOf "throws" o.2.tags ≠ []
  throws_nearest : tagsOf "throws" added ≠ [] →
    ∃ o, First (fun o => tagsOf "throws" o.2.tags ≠ []) above o ∧
      tagsOf "throws" added = tagsOf "throws" o.2.tags

/-! ### Tags of one kind -/

lemma tagsOf_append (kind : Text) (tags tags' : List Tag) :
    tagsOf kind (tags ++ tags') = tagsOf kind tags ++ tagsOf kind tags' :=
  List.filter_append ..

lemma tagsOf_eq_self {kind : Text} {tags : List Tag} (h : ∀ t ∈ tags, t.kind = kind) :
    tagsOf kind tags = tags := by
  rw [tagsOf, List.filter_eq_self]
  simpa using h

lemma tagsOf_eq_nil {kind kind' : Text} {tags : List Tag} (h : ∀ t ∈ tags, t.kind = kind)
    (hne : kind ≠ kind') : tagsOf kind' tags = [] := by
  rw [tagsOf, List.filter_eq_nil_iff]
  intro t ht
  simpa [h t ht] using hne

/-! ### What is inherited -/

section

variable {e : Entity} {above : List Overridden}

/-- The tag that an overridden member has for a position is its first one for that parameter. -/
lemma inheritedParam?_eq_some_iff {i : Nat} {o : Overridden} {s : Tag} :
    inheritedParam? i o = some s ↔ First (·.Documents o.1 i) o.2.tags s := by
  rw [inheritedParam?]
  cases hname : o.1.parameterNames[i]? with
  | none =>
    refine iff_of_false (by simp) fun hs => ?_
    have hnone := hs.mem.2.2
    rw [hname] at hnone
    cases hnone
  | some name =>
    have hdocuments : (·.Documents o.1 i) = fun t : Tag => t.kind = "param" ∧ t.name = name := by
      funext t
      rw [Tag.Documents, hname, Option.some.injEq, eq_comm (a := name)]
    rw [Option.bind_some, MergedDoc.paramTag?, tagsOf, List.find?_filter, find?_eq_some_iff_first,
      hdocuments]
    simp only [decide_eq_true_eq]

lemma exists_inheritedParam?_iff {i : Nat} {o : Overridden} :
    (∃ s, inheritedParam? i o = some s) ↔ ∃ t ∈ o.2.tags, t.Documents o.1 i := by
  simp only [inheritedParam?_eq_some_iff]
  exact ⟨fun ⟨s, hs⟩ => ⟨s, hs.mem⟩, exists_first⟩

/-- A tag is given for a parameter that has none, from the nearest member that has one for its own
parameter there. -/
lemma mem_inheritedParams {t : Tag} : t ∈ inheritedParams e above ↔
    ∃ i name s, e.parameterNames[i]? = some name ∧ name ≠ [] ∧
      (∀ t ∈ e.tags, ¬ t.Documents e i) ∧ above.findSome? (inheritedParam? i) = some s ∧
      t = { s with kind := "param", name } := by
  have hdocumented {i : Nat} {name : Text} (hname : e.parameterNames[i]? = some name) :
      name ∈ (tagsOf "param" e.tags).map (·.name) ↔ ∃ t ∈ e.tags, t.Documents e i := by
    simp only [List.mem_map, mem_tagsOf, Tag.Documents, hname, Option.some.injEq, and_assoc,
      eq_comm (a := name)]
  rw [inheritedParams, List.mem_filterMap]
  constructor
  · rintro ⟨⟨name, i⟩, hmem, hp⟩
    have hname := List.mem_zipIdx_iff_getElem?.1 hmem
    split at hp
    · cases hp
    · rename_i hcond
      obtain ⟨s, hs, rfl⟩ := Option.map_eq_some_iff.1 hp
      simp only [Bool.or_eq_true, decide_eq_true_eq, not_or, hdocumented hname, not_exists,
        not_and] at hcond
      exact ⟨i, name, s, hname, hcond.1, hcond.2, hs, rfl⟩
  · rintro ⟨i, name, s, hname, hne, hown, hs, rfl⟩
    refine ⟨(name, i), List.mem_zipIdx_iff_getElem?.2 hname, ?_⟩
    have hnone : name ∉ (tagsOf "param" e.tags).map (·.name) := fun hmem =>
      have ⟨t, ht, hdocuments⟩ := (hdocumented hname).1 hmem
      hown t ht hdocuments
    simp [hne, hnone, hs]

lemma kind_of_mem_inheritedParams {t : Tag} (h : t ∈ inheritedParams e above) :
    t.kind = "param" := by
  obtain ⟨i, name, s, -, -, -, -, rfl⟩ := mem_inheritedParams.1 h
  rfl

lemma filterMap_sublist_map {α β : Type} {f : α → Option β} {g : α → β} {l : List α}
    (h : ∀ a b, f a = some b → b = g a) : (l.filterMap f).Sublist (l.map g) := by
  induction l with
  | nil => exact .slnil
  | cons a l ih =>
    rw [List.filterMap_cons, List.map_cons]
    split
    · exact ih.cons _
    · rename_i b hb
      rw [h a b hb]
      exact ih.cons_cons _

/-- The tags for parameters are in the order of the parameters. -/
lemma names_inheritedParams_sublist :
    ((inheritedParams e above).map (·.name)).Sublist e.parameterNames := by
  have hsub : ((inheritedParams e above).map (·.name)).Sublist
      (e.parameterNames.zipIdx.map (·.1)) := by
    rw [inheritedParams, List.map_filterMap]
    apply filterMap_sublist_map
    intro p name hp
    obtain ⟨t, ht, rfl⟩ := Option.map_eq_some_iff.1 hp
    split at ht
    · cases ht
    · obtain ⟨s, -, rfl⟩ := Option.map_eq_some_iff.1 ht
      rfl
  rwa [List.zipIdx_map_fst] at hsub

lemma kind_of_mem_inheritedReturn {t : Tag} (h : t ∈ inheritedReturn e above) :
    t.kind = "return" := by
  rw [inheritedReturn] at h
  split at h
  · obtain ⟨o, -, ht⟩ := List.mem_flatMap.1 (List.mem_of_mem_take h)
    exact (mem_tagsOf.1 ht).2
  · cases h

lemma inheritedReturn_of_first (hown : tagsOf "return" e.tags = [])
    (hresult : e.returnType ≠ "void")
    {o : Overridden} (ho : First (fun o => tagsOf "return" o.2.tags ≠ []) above o) :
    ∃ t, (tagsOf "return" o.2.tags).head? = some t ∧ inheritedReturn e above = [t] := by
  obtain ⟨before, after, rfl, hne, hbefore⟩ := ho
  obtain ⟨t, ts, ht⟩ := List.exists_cons_of_ne_nil hne
  have hskip : before.flatMap (fun o => tagsOf "return" o.2.tags) = [] :=
    List.flatMap_eq_nil_iff.2 fun o ho => not_not.1 (hbefore o ho)
  refine ⟨t, by rw [ht, List.head?_cons], ?_⟩
  rw [inheritedReturn, hown, List.flatMap_append, hskip, List.flatMap_cons, ht]
  simp [hresult]

lemma inheritedReturn_of_not (h : ¬ (tagsOf "return" e.tags = [] ∧ e.returnType ≠ "void" ∧
    ∃ o ∈ above, tagsOf "return" o.2.tags ≠ [])) : inheritedReturn e above = [] := by
  rw [inheritedReturn]
  split
  · rename_i hcond
    simp only [Bool.and_eq_true, List.isEmpty_iff, decide_eq_true_eq] at hcond
    have hnone : above.flatMap (fun o => tagsOf "return" o.2.tags) = [] :=
      List.flatMap_eq_nil_iff.2 fun o ho =>
        by_contra fun hne => h ⟨hcond.1, hcond.2, o, ho, hne⟩
    rw [hnone, List.take_nil]
  · rfl

lemma inheritedThrows_of_first (hown : tagsOf "throws" e.tags = []) {o : Overridden}
    (ho : First (fun o => tagsOf "throws" o.2.tags ≠ []) above o) :
    inheritedThrows e above = tagsOf "throws" o.2.tags := by
  obtain ⟨before, after, rfl, hne, hbefore⟩ := ho
  have hskip : before.findSome? (fun o =>
      let tags := tagsOf "throws" o.2.tags
      if tags.isEmpty then none else some tags) = none :=
    List.findSome?_eq_none_iff.2 fun o ho => by simpa using hbefore o ho
  rw [inheritedThrows, hown, if_pos List.isEmpty_nil, List.findSome?_append, hskip, Option.none_or,
    List.findSome?_cons]
  simp [hne]

lemma inheritedThrows_of_not (h : ¬ (tagsOf "throws" e.tags = [] ∧
    ∃ o ∈ above, tagsOf "throws" o.2.tags ≠ [])) : inheritedThrows e above = [] := by
  rw [inheritedThrows]
  split
  · rename_i hown
    have hnone : above.findSome? (fun o =>
        let tags := tagsOf "throws" o.2.tags
        if tags.isEmpty then none else some tags) = none :=
      List.findSome?_eq_none_iff.2 fun o ho => by
        have hnil := not_not.1 fun hne => h ⟨List.isEmpty_iff.1 hown, o, ho, hne⟩
        simpa using hnil
    rw [hnone, Option.getD_none]
  · rfl

lemma kind_of_mem_inheritedThrows {t : Tag} (h : t ∈ inheritedThrows e above) :
    t.kind = "throws" := by
  by_cases hcond : tagsOf "throws" e.tags = [] ∧ ∃ o ∈ above, tagsOf "throws" o.2.tags ≠ []
  · obtain ⟨o, ho⟩ := exists_first hcond.2
    rw [inheritedThrows_of_first hcond.1 ho] at h
    exact (mem_tagsOf.1 h).2
  · rw [inheritedThrows_of_not hcond] at h
    cases h

lemma tagsOf_inheritedTags (e : Entity) (above : List Overridden) :
    tagsOf "param" (inheritedTags e above) = inheritedParams e above ∧
      tagsOf "return" (inheritedTags e above) = inheritedReturn e above ∧
      tagsOf "throws" (inheritedTags e above) = inheritedThrows e above := by
  have hparams : ∀ t ∈ inheritedParams e above, t.kind = "param" :=
    fun _ => kind_of_mem_inheritedParams
  have hreturn : ∀ t ∈ inheritedReturn e above, t.kind = "return" :=
    fun _ => kind_of_mem_inheritedReturn
  have hthrows : ∀ t ∈ inheritedThrows e above, t.kind = "throws" :=
    fun _ => kind_of_mem_inheritedThrows
  simp only [inheritedTags, tagsOf_append]
  refine ⟨?_, ?_, ?_⟩
  · rw [tagsOf_eq_self hparams, tagsOf_eq_nil hreturn (by decide),
      tagsOf_eq_nil hthrows (by decide), List.append_nil, List.append_nil]
  · rw [tagsOf_eq_nil hparams (by decide), tagsOf_eq_self hreturn,
      tagsOf_eq_nil hthrows (by decide), List.nil_append, List.append_nil]
  · rw [tagsOf_eq_nil hparams (by decide), tagsOf_eq_nil hreturn (by decide),
      tagsOf_eq_self hthrows, List.nil_append, List.nil_append]

/-- With distinct names for its parameters, a method takes exactly the tags that it lacks. -/
lemma completes_inheritedTags (above : List Overridden) (hdistinct : e.parameterNames.Nodup)
    (hnames : [] ∉ e.parameterNames) : Completes e above (inheritedTags e above) := by
  obtain ⟨hparams, hreturn, hthrows⟩ := tagsOf_inheritedTags e above
  have hname {i : Nat} {name : Text} (hi : e.parameterNames[i]? = some name) : name ≠ [] :=
    fun hnil => hnames (hnil ▸ List.mem_of_getElem? hi)
  constructor
  case kinds =>
    intro t ht
    rw [inheritedTags, List.mem_append, List.mem_append] at ht
    rcases ht with (ht | ht) | ht
    · exact .inl (kind_of_mem_inheritedParams ht)
    · exact .inr (.inl (kind_of_mem_inheritedReturn ht))
    · exact .inr (.inr (kind_of_mem_inheritedThrows ht))
  case params_iff =>
    intro name
    rw [hparams, List.mem_map]
    constructor
    · rintro ⟨t, ht, rfl⟩
      obtain ⟨i, name, s, hi, -, hown, hs, rfl⟩ := mem_inheritedParams.1 ht
      obtain ⟨o, ho, hdocuments⟩ := List.exists_of_findSome?_eq_some hs
      exact ⟨i, hi, hown, o, ho, exists_inheritedParam?_iff.1 ⟨s, hdocuments⟩⟩
    · rintro ⟨i, hi, hown, o, ho, hdocuments⟩
      obtain ⟨s, hs⟩ := Option.isSome_iff_exists.1 (List.findSome?_isSome_iff.2 ⟨o, ho,
        Option.isSome_iff_exists.2 (exists_inheritedParam?_iff.2 hdocuments)⟩)
      exact ⟨_, mem_inheritedParams.2 ⟨i, name, s, hi, hname hi, hown, hs, rfl⟩, rfl⟩
  case params_once =>
    rw [hparams]
    exact names_inheritedParams_sublist.nodup hdistinct
  case params_nearest =>
    intro i t ht hi
    have ht' : t ∈ inheritedParams e above := hparams ▸ mem_tagsOf.2 ⟨ht, hi.1⟩
    obtain ⟨j, name, s, hj, -, -, hs, rfl⟩ := mem_inheritedParams.1 ht'
    -- the names are distinct, so the tag was taken for this position
    obtain rfl : i = j := by
      have hlt : i < e.parameterNames.length := (List.getElem?_eq_some_iff.1 hi.2).1
      exact (List.getElem?_inj hlt hdistinct).1 (hi.2.trans hj.symm)
    obtain ⟨o, ho, hos⟩ := findSome?_eq_some_iff_first.1 hs
    simp only [exists_inheritedParam?_iff] at ho
    have hfirst := inheritedParam?_eq_some_iff.1 hos
    refine ⟨o, ho, s, hfirst, ?_⟩
    rw [← hfirst.mem.2.1]
  case result_iff =>
    rw [hreturn]
    refine ⟨fun hne => not_not.1 (mt inheritedReturn_of_not hne), ?_⟩
    rintro ⟨hown, hresult, hex⟩
    obtain ⟨o, ho⟩ := exists_first hex
    obtain ⟨t, -, ht⟩ := inheritedReturn_of_first hown hresult ho
    simp [ht]
  case result_nearest =>
    rw [hreturn]
    intro hne
    obtain ⟨hown, hresult, hex⟩ := not_not.1 (mt inheritedReturn_of_not hne)
    obtain ⟨o, ho⟩ := exists_first hex
    exact ⟨o, ho, inheritedReturn_of_first hown hresult ho⟩
  case throws_iff =>
    rw [hthrows]
    refine ⟨fun hne => not_not.1 (mt inheritedThrows_of_not hne), ?_⟩
    rintro ⟨hown, hex⟩
    obtain ⟨o, ho⟩ := exists_first hex
    rw [inheritedThrows_of_first hown ho]
    exact ho.mem.2
  case throws_nearest =>
    rw [hthrows]
    intro hne
    obtain ⟨hown, hex⟩ := not_not.1 (mt inheritedThrows_of_not hne)
    obtain ⟨o, ho⟩ := exists_first hex
    exact ⟨o, ho, inheritedThrows_of_first hown ho⟩

/-- A method is given tags, after its own. -/
lemma tags_mergeDoc (hmethod : e.isMethod = true) :
    (mergeDoc e above).tags = e.tags ++ inheritedTags e above := by
  rw [mergeDoc]
  split
  · rename_i hnil
    rw [List.isEmpty_iff.1 hnil]
    simp [MergedDoc.own, inheritedTags, inheritedParams, inheritedReturn, inheritedThrows]
  · exact congrArg (· ++ inheritedTags e above) (tags_mergeText e above)

/-- A parameter is documented if a method or a member that it overrides does so. -/
lemma exists_documents_mergeDoc (hmethod : e.isMethod = true) (hdistinct : e.parameterNames.Nodup)
    (hnames : [] ∉ e.parameterNames) {i : Nat} (hi : i < e.parameterNames.length) :
    (∃ t ∈ (mergeDoc e above).tags, t.Documents e i) ↔
      (∃ t ∈ e.tags, t.Documents e i) ∨ ∃ o ∈ above, ∃ t ∈ o.2.tags, t.Documents o.1 i := by
  have hadded := completes_inheritedTags above hdistinct hnames
  have hname := List.getElem?_eq_getElem hi
  rw [tags_mergeDoc hmethod]
  constructor
  · rintro ⟨t, ht, hdocuments⟩
    rcases List.mem_append.1 ht with ht | ht
    · exact .inl ⟨t, ht, hdocuments⟩
    · obtain ⟨o, ho, -⟩ := hadded.params_nearest i t ht hdocuments
      exact .inr ⟨o, ho.mem⟩
  · intro h
    by_cases hown : ∃ t ∈ e.tags, t.Documents e i
    · obtain ⟨t, ht, hdocuments⟩ := hown
      exact ⟨t, List.mem_append_left _ ht, hdocuments⟩
    · have hnone : ∀ t ∈ e.tags, ¬ t.Documents e i := by simpa using hown
      obtain ⟨t, ht, heq⟩ := List.mem_map.1
        ((hadded.params_iff _).2 ⟨i, hname, hnone, h.resolve_left hown⟩)
      obtain ⟨ht, hkind⟩ := mem_tagsOf.1 ht
      exact ⟨t, List.mem_append_right _ ht, hkind, hname.trans (congrArg some heq.symm)⟩

end

/-! ### Over all levels -/

lemma Tag.Documents.lt {t : Tag} {e : Entity} {i : Nat} (h : t.Documents e i) :
    i < e.parameterNames.length :=
  (List.getElem?_eq_some_iff.1 h.2).1

namespace Model

variable {m : Model} (h : m.Consistent)

include h

lemma isMethod_of_mem_overridden {e o : Entity} (ho : o ∈ m.overridden e) :
    o.isMethod = e.isMethod := by
  obtain ⟨-, a, -, hfind⟩ := (mem_overridden_iff_ancestor h).1 ho
  have hsignature := List.find?_some hfind
  simp only [sameSignature, Bool.and_eq_true, decide_eq_true_eq] at hsignature
  exact Entity.isMethod_of_kind_eq hsignature.1.1

/-- Over all levels, a parameter of a method is documented if the method or a member that it
overrides has a tag of its own for it. -/
lemma exists_documents_fullDoc (ha : m.Acyclic) (hnames : ∀ e ∈ m.entities, e.isMethod = true →
      e.parameterNames.Nodup ∧ [] ∉ e.parameterNames)
    {e : Entity} (he : e ∈ m.entities) (hmethod : e.isMethod = true) {i : Nat}
    (hi : i < e.parameterNames.length) :
    (∃ t ∈ (m.fullDoc e).tags, t.Documents e i) ↔
      ∃ o ∈ e :: m.overridden e, ∃ t ∈ o.tags, t.Documents o i := by
  -- by induction over what is overridden: what a member there overrides, the method overrides too
  revert hmethod hi
  refine overridden_induction h ha (P := fun e => e.isMethod = true → i < e.parameterNames.length →
    ((∃ t ∈ (m.fullDoc e).tags, t.Documents e i) ↔
      ∃ o ∈ e :: m.overridden e, ∃ t ∈ o.tags, t.Documents o i)) ?_ he
  intro e he ih hmethod hi
  have hmethods : ∀ o ∈ m.overridden e, o.isMethod = true := fun o ho =>
    (isMethod_of_mem_overridden h ho).trans hmethod
  obtain ⟨hdistinct, hnonempty⟩ := hnames e he hmethod
  rw [fullDoc_eq h ha, exists_documents_mergeDoc hmethod hdistinct hnonempty hi]
  constructor
  · rintro (hown | ⟨p, hp, t, ht, hdocuments⟩)
    · exact ⟨e, List.mem_cons_self, hown⟩
    · obtain ⟨o, ho, rfl⟩ := List.mem_map.1 hp
      obtain ⟨d, hd, hdtags⟩ :=
        (ih o ho (hmethods o ho) hdocuments.lt).1 ⟨t, ht, hdocuments⟩
      refine ⟨d, List.mem_cons_of_mem _ ?_, hdtags⟩
      rcases List.mem_cons.1 hd with rfl | hd
      · exact ho
      · exact overridden_subset h ha ho hd
  · rintro ⟨o, ho, t, ht, hdocuments⟩
    rcases List.mem_cons.1 ho with rfl | ho
    · exact .inl ⟨t, ht, hdocuments⟩
    · have hshown := (ih o ho (hmethods o ho) hdocuments.lt).2
        ⟨o, List.mem_cons_self, t, ht, hdocuments⟩
      exact .inr ⟨(o, m.fullDoc o), List.mem_map_of_mem ho, hshown⟩

end Model

/-- In the view of an extracted model without cycles, where the parameters of each method have
distinct names, a method has its own tags followed by those that it lacks. Of its parameters exactly
those are documented for which it or a member that it overrides has a tag of its own. -/
theorem tags_of_method {n : Nat} {limit : Visibility} {ds : List Declaration} {x : Extracted}
    (h : extract n limit ds = .ok x) (ha : x.model.Acyclic)
    (hnames : ∀ e ∈ x.model.entities, e.isMethod = true →
      e.parameterNames.Nodup ∧ [] ∉ e.parameterNames) :
    ∃ v, x.model.view true = .ok v ∧
      ∀ e ∈ x.model.entities, e.isMethod = true →
        (∃ added, (v.doc e.qualifiedName).tags = e.tags ++ added ∧
          Completes e ((x.model.overridden e).map fun o => (o, v.doc o.qualifiedName)) added) ∧
        ∀ i < e.parameterNames.length,
          ((∃ t ∈ (v.doc e.qualifiedName).tags, t.Documents e i) ↔
            ∃ o ∈ e :: x.model.overridden e, ∃ t ∈ o.tags, t.Documents o i) := by
  have hc : x.model.Consistent := consistent_of_extract h
  refine ⟨x.model.viewOf true, hc.view_eq true, fun e he hmethod => ?_⟩
  obtain ⟨hdistinct, hnonempty⟩ := hnames e he hmethod
  rw [Model.doc_viewOf_of_mem hc ha he]
  refine ⟨⟨_, ?_, completes_inheritedTags _ hdistinct hnonempty⟩, fun i hi =>
    Model.exists_documents_fullDoc hc ha hnames he hmethod hi⟩
  have habove : (x.model.overridden e).map (fun o => (o, (x.model.viewOf true).doc o.qualifiedName))
      = (x.model.overridden e).map fun o => (o, x.model.fullDoc o) :=
    List.map_congr_left fun o ho => by
      rw [Model.doc_viewOf_of_mem hc ha (Model.mem_entities_of_mem_overridden ho)]
  rw [habove, Model.fullDoc_eq hc ha, tags_mergeDoc hmethod]

/-- Declarations of a method on three levels, whose parameters have other names on each. -/
def renamedParameters : List Declaration :=
  [ { kind := "package", name := "p" },
    { kind := "interface", name := "Map", scope := "p" },
    { kind := "method", name := "put", scope := "p.Map", returns := "boolean",
      parameters := some [{ name := "key", type := "int" }, { name := "value", type := "int" }],
      tags := [{ kind := "param", text := "key the key" },
        { kind := "param", text := "value the value" },
        { kind := "return", text := "whether the key is new" }] },
    { kind := "class", name := "Table", scope := "p", interfaces := ["Map"] },
    { kind := "method", name := "put", scope := "p.Table", returns := "boolean",
      parameters := some [{ name := "row", type := "int" }, { name := "cell", type := "int" }],
      tags := [{ kind := "param", text := "cell what to store" }] },
    { kind := "class", name := "Register", scope := "p", superclass := some "Table" },
    { kind := "method", name := "put", scope := "p.Register", returns := "boolean",
      parameters := some [{ name := "line", type := "int" }, { name := "entry", type := "int" }] } ]

/-- Each parameter is documented from the nearest member that documents its place. -/
theorem tags_of_method_renamedParameters :
    ∃ x v e added, extract 0 .declaring renamedParameters = .ok x ∧ x.model.Acyclic ∧
      (∀ e ∈ x.model.entities, e.isMethod = true →
        e.parameterNames.Nodup ∧ [] ∉ e.parameterNames) ∧
      x.model.view true = .ok v ∧ x.model.find? "p.Register#put(int,int)" = some e ∧
      (v.doc e.qualifiedName).tags = e.tags ++ added ∧
      Completes e ((x.model.overridden e).map fun o => (o, v.doc o.qualifiedName)) added ∧
      added = [{ kind := "param", name := "line", text := "the key" },
        { kind := "param", name := "entry", text := "what to store" },
        { kind := "return", text := "whether the key is new" }] := by
  obtain ⟨x, v, e, hx, ha, hnames, hv, he, hmethod, htags⟩ :
      ∃ x v e, extract 0 .declaring renamedParameters = .ok x ∧ x.model.Acyclic ∧
        (∀ e ∈ x.model.entities, e.isMethod = true →
          e.parameterNames.Nodup ∧ [] ∉ e.parameterNames) ∧
        x.model.view true = .ok v ∧ x.model.find? "p.Register#put(int,int)" = some e ∧
        e.isMethod = true ∧ (v.doc e.qualifiedName).tags = e.tags ++
          [{ kind := "param", name := "line", text := "the key" },
            { kind := "param", name := "entry", text := "what to store" },
            { kind := "return", text := "whether the key is new" }] := by
    refine ⟨_, _, _, rfl, Model.acyclic_of_rank List.length (by decide), ?_, rfl, rfl, rfl, ?_⟩
    · decide
    · decide +kernel
  obtain ⟨v', hv', hall⟩ := tags_of_method hx ha hnames
  obtain rfl : v = v' := Except.ok.inj (hv.symm.trans hv')
  obtain ⟨⟨added, hadded, hcompletes⟩, -⟩ := hall e (List.mem_of_find?_eq_some he) hmethod
  exact ⟨x, v, e, added, hx, ha, hnames, hv, he, hadded, hcompletes,
    List.append_cancel_left (hadded.symm.trans htags)⟩

end ApiDocs
