import ApiDocs.Proofs.AlikeViews
import ApiDocs.Proofs.Ancestors
import ApiDocs.Proofs.ParameterLists

/-!
# Where an inherited text comes from

A field or method without a text takes that of the first member it overrides whose documentation has
a text, inherited or not. What the members it overrides override, it overrides too, so the text is
always that of a documented member on its own list. It need not be the first documented one there:
a member without a text of its own that comes earlier answers with what it inherits.
-/

namespace ApiDocs

open Text

/-! ### Signatures -/

lemma Entity.isField_of_kind_eq {e o : Entity} (h : o.kind = e.kind) : o.isField = e.isField := by
  rw [kind, kind] at h
  rw [isField, isField]
  cases ho : o.category <;> cases he : e.category <;> simp_all

lemma Entity.isMethod_of_kind_eq {e o : Entity} (h : o.kind = e.kind) :
    o.isMethod = e.isMethod := by
  rw [kind, kind] at h
  rw [isMethod, isMethod]
  cases ho : o.category <;> cases he : e.category <;> simp_all

namespace Model

/-- Members of one signature have the same signature as the same members. -/
lemma sameSignature_congr {e o : Entity} (h : sameSignature e o = true) :
    sameSignature o = sameSignature e := by
  simp only [sameSignature, Bool.and_eq_true, Bool.or_eq_true, decide_eq_true_eq,
    Name.parametersMatch_iff] at h
  obtain ⟨⟨hkind, hname⟩, hparameters⟩ := h
  have hfield := Entity.isField_of_kind_eq hkind
  funext d
  rw [Bool.eq_iff_iff]
  simp only [sameSignature, Bool.and_eq_true, Bool.or_eq_true, decide_eq_true_eq,
    Name.parametersMatch_iff, hkind, hname, hfield]
  rcases hparameters with hparameters | hparameters
  · simp [hparameters]
  · rw [hparameters]

variable {m : Model}

section

variable (h : m.Consistent)

include h

/-- What a member overrides is found in the ancestors of its type. -/
lemma mem_overridden_iff_ancestor {e d : Entity} :
    d ∈ m.overridden e ↔ (e.isField || e.isMethod) = true ∧
      ∃ a ∈ m.ancestorsOf e.scope, (m.membersOf a).find? (sameSignature e) = some d := by
  rw [overridden]
  split
  · rename_i hkind
    rw [eq_true hkind, true_and]
    cases htype : m.findType? e.scope with
    | none =>
      refine iff_of_false (by simp) ?_
      rintro ⟨a, ha, -⟩
      -- only types have ancestors
      obtain ⟨p, ⟨⟨t, ht, hname, -⟩, -⟩, -⟩ :=
        Relation.TransGen.head'_iff.1 (h.inherits_of_mem_ancestorsOf ha)
      rw [h.findType?_eq_some_iff.2 ⟨ht, hname⟩] at htype
      cases htype
    | some t =>
      obtain ⟨-, hname⟩ := h.findType?_eq_some_iff.1 htype
      simp only [List.mem_filterMap, hname]
  · rename_i hkind
    exact iff_of_false List.not_mem_nil fun hd => hkind hd.1

/-- Only fields and methods are overridden. -/
lemma isField_or_isMethod_of_mem_overridden {e o : Entity} (ho : o ∈ m.overridden e) :
    (o.isField || o.isMethod) = true := by
  obtain ⟨hkind, a, -, hfind⟩ := (mem_overridden_iff_ancestor h).1 ho
  have hsignature := List.find?_some hfind
  simp only [sameSignature, Bool.and_eq_true, decide_eq_true_eq] at hsignature
  rwa [Entity.isField_of_kind_eq hsignature.1.1, Entity.isMethod_of_kind_eq hsignature.1.1]

end

section

variable (h : m.Consistent) (ha : m.Acyclic)

include h ha

/-- What a member overrides is found in the types that its type inherits from. -/
lemma mem_overridden_iff {e d : Entity} :
    d ∈ m.overridden e ↔ (e.isField || e.isMethod) = true ∧
      ∃ a, Relation.TransGen m.Inherits e.scope a ∧
        (m.membersOf a).find? (sameSignature e) = some d := by
  simp only [mem_overridden_iff_ancestor h, mem_ancestorsOf_iff h ha]

/-- A member overrides what the members it overrides do. -/
lemma overridden_subset {e o : Entity} (ho : o ∈ m.overridden e) :
    m.overridden o ⊆ m.overridden e := by
  intro d hd
  obtain ⟨hkind, a, hinherits, hfind⟩ := (mem_overridden_iff h ha).1 ho
  obtain ⟨-, b, hfurther, hfind'⟩ := (mem_overridden_iff h ha).1 hd
  have hsignature := sameSignature_congr (List.find?_some hfind)
  have hscope := (h.inherits_of_mem_overridden ho).2
  rw [hsignature] at hfind'
  exact (mem_overridden_iff h ha).2 ⟨hkind, b, hscope.trans hfurther, hfind'⟩

end

end Model

/-! ### The donor of a text -/

/-- The text of a documentation with its links. -/
def MergedDoc.content (d : MergedDoc) : Text × Text × List Reference := (d.summary, d.body, d.links)

lemma MergedDoc.hasText_eq_of_content_eq {d d' : MergedDoc} (h : d.content = d'.content) :
    d.hasText = d'.hasText := by
  simp only [content, Prod.mk.injEq] at h
  rw [hasText, hasText, h.1, h.2.1]

/-- Without a text of its own, an entity takes content and credit from the first donor. -/
lemma mergeDoc_of_undocumented {e : Entity} (he : e.documented = false) (os : List Overridden) :
    (mergeDoc e os).content = ((donor? os).map (·.2.content)).getD (MergedDoc.own e).content ∧
      (mergeDoc e os).inheritedFrom = (donor? os).map (·.1.qualifiedName) := by
  have htexts : e.summary = [] ∧ e.body = [] := by simpa [Entity.documented] using he
  have hmarker : (hasMarker e.summary || hasMarker e.body) = false := by
    rw [htexts.1, htexts.2]
    rfl
  have hmerge : (mergeText e os).content =
        ((donor? os).map (·.2.content)).getD (MergedDoc.own e).content ∧
      (mergeText e os).inheritedFrom = (donor? os).map (·.1.qualifiedName) := by
    rw [mergeText, he]
    cases hdonor : donor? os with
    | none => simp [hmarker, MergedDoc.own]
    | some o => exact ⟨rfl, rfl⟩
  cases os with
  | nil => exact ⟨rfl, rfl⟩
  | cons o os =>
    rw [mergeDoc, if_neg (by simp)]
    cases e.isMethod with
    | false => exact hmerge
    | true => exact hmerge

namespace Model

variable {m : Model} (h : m.Consistent) (ha : m.Acyclic)

include h ha

/-- The first overridden member with a text gives an undocumented member its content. -/
lemma fullDoc_of_undocumented {e : Entity} (he : e.documented = false) :
    (m.fullDoc e).content =
        (((m.overridden e).find? fun o => (m.fullDoc o).hasText).map
          fun o => (m.fullDoc o).content).getD (MergedDoc.own e).content ∧
      (m.fullDoc e).inheritedFrom =
        ((m.overridden e).find? fun o => (m.fullDoc o).hasText).map (·.qualifiedName) := by
  have hdonor : donor? ((m.overridden e).map fun o => (o, m.fullDoc o)) =
      ((m.overridden e).find? fun o => (m.fullDoc o).hasText).map fun o => (o, m.fullDoc o) := by
    rw [donor?, List.find?_map]
    rfl
  rw [fullDoc_eq h ha]
  simpa only [hdonor, Option.map_map, Function.comp_def] using
    mergeDoc_of_undocumented he ((m.overridden e).map fun o => (o, m.fullDoc o))

/-- A text that an undocumented member has is that of a documented member that it overrides. -/
lemma exists_documented {e : Entity} (he : e.documented = false)
    (htext : (m.fullDoc e).hasText = true) :
    ∃ d ∈ m.overridden e, d.documented = true ∧
      (m.fullDoc d).content = (m.fullDoc e).content := by
  -- by induction on the height of the type: donors belong to lower types
  induction hheight : m.height e.scope using Nat.strong_induction_on generalizing e with
  | _ n ih =>
    have hcontent := (fullDoc_of_undocumented h ha he).1
    cases hdonor : (m.overridden e).find? fun o => (m.fullDoc o).hasText with
    | none =>
      rw [hdonor] at hcontent
      have hown := MergedDoc.hasText_eq_of_content_eq hcontent
      have hnone : (MergedDoc.own e).hasText = false := he
      rw [htext, hnone] at hown
      cases hown
    | some o =>
      rw [hdonor] at hcontent
      have hmem := List.mem_of_find?_eq_some hdonor
      cases ho : o.documented with
      | true => exact ⟨o, hmem, ho, hcontent.symm⟩
      | false =>
        have hlower := height_lt_of_mem_overridden h ha hmem
        have hdonortext : (m.fullDoc o).hasText = true := by simpa using List.find?_some hdonor
        obtain ⟨d, hd, hdocumented, heq⟩ := ih _ (hheight ▸ hlower) ho hdonortext rfl
        exact ⟨d, overridden_subset h ha hmem hd, hdocumented, heq.trans hcontent.symm⟩

/-- Where no overridden member has a text of its own, none has one at all. -/
lemma find?_hasText_of_undocumented {e : Entity}
    (hnone : ∀ o ∈ m.overridden e, o.documented = false) :
    ((m.overridden e).find? fun o => (m.fullDoc o).hasText) = none := by
  rw [List.find?_eq_none]
  intro o ho htext
  obtain ⟨d, hd, hdocumented, -⟩ := exists_documented h ha (hnone o ho) htext
  rw [hnone d (overridden_subset h ha ho hd)] at hdocumented
  cases hdocumented

end Model

/-- In the view of an extracted model without cycles, an entity without a text of its own has the
text, with its links, of the first member it overrides whose documentation has a text, and names
that member as its source. The text is also that of a documented member it overrides. If the
documentation of no such member has a text, it has none and names no source; so it is, in
particular, if none of them is documented. -/
theorem content_of_undocumented {n : Nat} {limit : Visibility} {ds : List Declaration}
    {x : Extracted} (h : extract n limit ds = .ok x) (ha : x.model.Acyclic) :
    ∃ v, x.model.view true = .ok v ∧
      ∀ e ∈ x.model.entities, e.documented = false →
        (∀ o, (x.model.overridden e).find? (fun o => (v.doc o.qualifiedName).hasText) = some o →
          (v.doc e.qualifiedName).content = (v.doc o.qualifiedName).content ∧
          (v.doc e.qualifiedName).inheritedFrom = some o.qualifiedName ∧
          ∃ d ∈ x.model.overridden e, d.documented = true ∧
            (v.doc d.qualifiedName).content = (v.doc e.qualifiedName).content) ∧
        ((x.model.overridden e).find? (fun o => (v.doc o.qualifiedName).hasText) = none →
          (v.doc e.qualifiedName).summary = [] ∧ (v.doc e.qualifiedName).body = [] ∧
          (v.doc e.qualifiedName).inheritedFrom = none) ∧
        ((∀ o ∈ x.model.overridden e, o.documented = false) →
          (x.model.overridden e).find? (fun o => (v.doc o.qualifiedName).hasText) = none) := by
  have hc : x.model.Consistent := consistent_of_extract h
  refine ⟨x.model.viewOf true, hc.view_eq true, fun e he hundocumented => ?_⟩
  have hdoc {o : Entity} (ho : o ∈ x.model.entities) :
      (x.model.viewOf true).doc o.qualifiedName = x.model.fullDoc o := by
    rw [Model.doc_viewOf hc ha, Model.find?_of_mem hc.distinct ho]
    rfl
  have hdonor : (x.model.overridden e).find?
        (fun o => ((x.model.viewOf true).doc o.qualifiedName).hasText) =
      (x.model.overridden e).find? fun o => (x.model.fullDoc o).hasText := by
    rw [← List.head?_filter, ← List.head?_filter]
    congr 1
    apply List.filter_congr
    intro o ho
    rw [hdoc (Model.mem_entities_of_mem_overridden ho)]
  obtain ⟨hcontent, hsource⟩ := Model.fullDoc_of_undocumented hc ha hundocumented
  rw [hdonor, hdoc he]
  refine ⟨fun o ho => ?_, fun hnone => ?_,
    Model.find?_hasText_of_undocumented hc ha⟩
  · have hmem := Model.mem_entities_of_mem_overridden (List.mem_of_find?_eq_some ho)
    rw [ho, Option.map_some, Option.getD_some] at hcontent
    rw [ho, Option.map_some] at hsource
    have htext : (x.model.fullDoc e).hasText = true := by
      rw [MergedDoc.hasText_eq_of_content_eq hcontent]
      simpa using List.find?_some ho
    obtain ⟨d, hd, hdocumented, heq⟩ := Model.exists_documented hc ha hundocumented htext
    rw [hdoc hmem]
    refine ⟨hcontent, hsource, d, hd, hdocumented, ?_⟩
    rw [hdoc (Model.mem_entities_of_mem_overridden hd), heq]
  · rw [hnone] at hcontent hsource
    have htexts : e.summary = [] ∧ e.body = [] := by
      simpa [Entity.documented] using hundocumented
    simp only [MergedDoc.content, MergedDoc.own, Option.map_none, Option.getD_none, htexts.1,
      htexts.2, Prod.mk.injEq] at hcontent
    exact ⟨hcontent.1, hcontent.2.1, hsource⟩

/-- Declarations of a method that is documented in an interface and, further away, behind a
superclass that overrides it without a text. -/
def detour : List Declaration :=
  [ { kind := "package", name := "p" },
    { kind := "class", name := "Root", scope := "p" },
    { kind := "method", name := "run", scope := "p.Root", comment := "Runs far away." },
    { kind := "interface", name := "Near", scope := "p" },
    { kind := "method", name := "run", scope := "p.Near", comment := "Runs close by." },
    { kind := "class", name := "Middle", scope := "p", superclass := some "Root" },
    { kind := "method", name := "run", scope := "p.Middle" },
    { kind := "class", name := "Undermost", scope := "p", superclass := some "Middle",
      interfaces := ["Near"] },
    { kind := "method", name := "run", scope := "p.Undermost" } ]

/-- The method at the end of the detour has a text from behind the superclass, and the interface
documents the first member it overrides that is documented. -/
lemma exists_run_of_detour :
    ∃ x, extract 0 .declaring detour = .ok x ∧ x.model.Acyclic ∧
      ∃ v, x.model.view true = .ok v ∧ ∃ e, x.model.find? "p.Undermost#run()" = some e ∧
        e.isMethod = true ∧ e.documented = false ∧
        (∃ o, (x.model.overridden e).find? (fun o => (v.doc o.qualifiedName).hasText) = some o ∧
          o.qualifiedName = "p.Middle#run()") ∧
        ∃ o, (x.model.overridden e).find? (·.documented) = some o ∧
          (v.doc e.qualifiedName).summary ≠ (v.doc o.qualifiedName).summary ∧
          (v.doc e.qualifiedName).inheritedFrom ≠ some o.qualifiedName := by
  refine ⟨_, rfl, Model.acyclic_of_rank List.length (by decide), _, rfl, _, rfl, rfl, rfl,
    ⟨_, rfl, rfl⟩, _, rfl, ?_, ?_⟩
  · decide
  · decide

theorem content_of_undocumented_detour :
    ∃ x v e o, extract 0 .declaring detour = .ok x ∧ x.model.Acyclic ∧
      x.model.view true = .ok v ∧ e ∈ x.model.entities ∧ e.documented = false ∧
      (x.model.overridden e).find? (fun o => (v.doc o.qualifiedName).hasText) = some o ∧
      o.qualifiedName = "p.Middle#run()" ∧
      (v.doc e.qualifiedName).content = (v.doc o.qualifiedName).content ∧
      (v.doc e.qualifiedName).inheritedFrom = some o.qualifiedName ∧
      ∃ d ∈ x.model.overridden e, d.documented = true ∧
        (v.doc d.qualifiedName).content = (v.doc e.qualifiedName).content := by
  obtain ⟨x, hx, ha, v, hv, e, he, -, hundocumented, ⟨o, ho, hname⟩, -⟩ := exists_run_of_detour
  have hmem := List.mem_of_find?_eq_some he
  obtain ⟨v', hv', hcontent⟩ := content_of_undocumented hx ha
  obtain rfl : v = v' := Except.ok.inj (hv.symm.trans hv')
  exact ⟨x, v, e, o, hx, ha, hv, hmem, hundocumented, ho, hname,
    (hcontent e hmem hundocumented).1 o ho⟩

/-- The nearest documented member is passed over for a text that a nearer one inherits. -/
theorem nearest_documented_passed_over :
    ∃ x v e o, extract 0 .declaring detour = .ok x ∧ x.model.Acyclic ∧
      x.model.view true = .ok v ∧ e ∈ x.model.entities ∧ e.isMethod = true ∧
      e.documented = false ∧ (x.model.overridden e).find? (·.documented) = some o ∧
      (v.doc e.qualifiedName).summary ≠ (v.doc o.qualifiedName).summary ∧
      (v.doc e.qualifiedName).inheritedFrom ≠ some o.qualifiedName := by
  obtain ⟨x, hx, ha, v, hv, e, he, hmethod, hundocumented, -, o, ho, hsummary, hsource⟩ :=
    exists_run_of_detour
  exact ⟨x, v, e, o, hx, ha, hv, List.mem_of_find?_eq_some he, hmethod, hundocumented, ho,
    hsummary, hsource⟩

end ApiDocs
