import ApiDocs.Proofs.Donors
import ApiDocs.Proofs.Reporting
import ApiDocs.Proofs.ShownReferences

/-!
# Where the references that are shown were written

A reference in the documentation of an entity was written by the entity itself or by a member that
it overrides, however many levels it was handed down, and it is resolved from there. Only where a
type inherits from itself may another member of that type have written it. Views hold references
and not what they resolve to, so a view may be made before its references are resolved or after.
-/

namespace ApiDocs

open Relation

namespace Model

variable {m : Model}

/-! ### Handing references down -/

/-- A member is the first one with the signature of a field or method in a type that the type of
that inherits from. -/
def HandsDown (m : Model) (o e : Entity) : Prop :=
  (e.isField || e.isMethod) = true ∧
    ∃ a, TransGen m.Inherits e.scope a ∧ (m.membersOf a).find? (sameSignature e) = some o

section

variable (h : m.Consistent)

include h

lemma handsDown_of_mem_overridden {e o : Entity} (ho : o ∈ m.overridden e) : m.HandsDown o e := by
  obtain ⟨hkind, a, ha, hfind⟩ := (mem_overridden_iff_ancestor h).1 ho
  exact ⟨hkind, a, h.inherits_of_mem_ancestorsOf ha, hfind⟩

/-- What is handed down to an overridden member is handed down further. -/
lemma HandsDown.of_mem_overridden {e o d : Entity} (hd : m.HandsDown d o)
    (ho : o ∈ m.overridden e) : m.HandsDown d e := by
  obtain ⟨hkind, a, -, hfind⟩ := (mem_overridden_iff_ancestor h).1 ho
  obtain ⟨-, b, hfurther, hfind'⟩ := hd
  rw [sameSignature_congr (List.find?_some hfind)] at hfind'
  exact ⟨hkind, b, (h.inherits_of_mem_overridden ho).2.trans hfurther, hfind'⟩

/-- What hands something down to a member is overridden by it, or belongs to the same type, which
then inherits from itself. -/
lemma HandsDown.mem_overridden_or {e o : Entity} (ho : m.HandsDown o e) :
    o ∈ m.overridden e ∨ (e.isField || e.isMethod) = true ∧
      TransGen m.Inherits e.scope e.scope ∧
      (m.membersOf e.scope).find? (sameSignature e) = some o := by
  obtain ⟨hkind, a, hinherits, hfind⟩ := ho
  by_cases hself : a = e.scope
  · rw [hself] at hinherits hfind
    exact .inr ⟨hkind, hinherits, hfind⟩
  · have hancestor := mem_ancestorsOf_of_inherits h hinherits hself
    exact .inl ((mem_overridden_iff_ancestor h).2 ⟨hkind, a, hancestor, hfind⟩)

/-- References in the documentation of an entity were written by it or handed down to it. -/
theorem inherited_writers : m.Inherited fun e d =>
    ∀ r ∈ d.references, ∃ o ∈ m.entities, r ∈ o.references ∧ (o = e ∨ m.HandsDown o e) := by
  refine ⟨fun e he r hr => ⟨e, he, hr, .inl rfl⟩, fun e he above habove r hr => ?_⟩
  rcases mem_references_mergeDoc hr with hr | ⟨p, hp, hr⟩
  · exact ⟨e, he, hr, .inl rfl⟩
  · obtain ⟨hoverridden, hwritten⟩ := habove p hp
    obtain ⟨o, ho, hr, rfl | hdown⟩ := hwritten r hr
    · exact ⟨p.1, ho, hr, .inr (handsDown_of_mem_overridden h hoverridden)⟩
    · exact ⟨o, ho, hr, .inr (hdown.of_mem_overridden h hoverridden)⟩

end

end Model

/-! ### The order of the stages -/

/-- Resolving references and making a view do not touch what the other one reads or writes. -/
lemma Workspace.run_resolveAll_aggregate (w : Workspace) (model name : Text) :
    w.run [.resolveAll model, .aggregate model name] =
      w.run [.aggregate model name, .resolveAll model] := by
  change (((w.apply (.resolveAll model)).1).apply (.aggregate model name)).1 =
    (((w.apply (.aggregate model name)).1).apply (.resolveAll model)).1
  cases hget : w.models.get? model with
  | none => simp [apply, Workspace.model, hget, error_bind]
  | some m =>
    cases hview : m.view w.settings.inherits with
    | error f => simp [apply, Workspace.model, hget, hview, ok_bind]
    | ok v => simp [apply, Workspace.model, hget, hview, ok_bind]

open Extraction

/-- Each reference shown in the view of an extracted model was written by the entity that it is
shown for, by a member that this one overrides or, where its type inherits from itself, by the first
member of the type with its signature. It makes no difference whether references are resolved before
the view is made or after. Once they are, each reference shown holds what its text resolves to from
where it was written. -/
theorem references_resolved_where_written {n : Nat} {limit : Visibility} {ds : List Declaration}
    {x : Extracted} (h : extract n limit ds = .ok x) {w : Workspace} {model : Text}
    (hmodel : w.models.get? model = some x.model) (name : Text) :
    ∃ v, x.model.view w.settings.inherits = .ok v ∧
      w.run [.resolveAll model, .aggregate model name] =
        w.run [.aggregate model name, .resolveAll model] ∧
      (w.run [.resolveAll model, .aggregate model name]).views.get? name = some v ∧
      ∀ e ∈ x.model.entities, ∃ doc, v.docs.get? e.qualifiedName = some doc ∧
        ∀ r ∈ doc.references, ∃ o ∈ x.model.entities, r ∈ o.references ∧
          (o = e ∨ o ∈ x.model.overridden e ∨ (e.isField || e.isMethod) = true ∧
            TransGen x.model.Inherits e.scope e.scope ∧
            (x.model.membersOf e.scope).find? (Model.sameSignature e) = some o) ∧
          ((∀ text, ∃ b, w.settings.isExternal text = .ok b) →
            ∃ outcome, x.model.resolve o r.text = .ok outcome ∧
              (w.run [.resolveAll model, .aggregate model name]).resolutions.get? r =
                some outcome) := by
  have hc : x.model.Consistent := consistent_of_extract h
  have hget : w.model model = .ok x.model := by rw [Workspace.model, hmodel]
  have hview := hc.view_eq w.settings.inherits
  -- a view changes no resolutions, so these are as they were when it was made
  have hrun : w.run [.resolveAll model, .aggregate model name] =
      { w with
        views := w.views.put name (x.model.viewOf w.settings.inherits)
        resolutions := (x.model.resolveAll w.settings w.resolutions).1.resolutions
        report := (x.model.resolveAll w.settings w.resolutions).1.report } := by
    rw [Workspace.run_resolveAll_aggregate]
    change ((w.apply (.aggregate model name)).1.apply (.resolveAll model)).1 = _
    simp [Workspace.apply, Workspace.model, hmodel, hview, ok_bind]
  refine ⟨x.model.viewOf w.settings.inherits, hview, w.run_resolveAll_aggregate model name, ?_,
    fun e he => ?_⟩
  · rw [hrun, Table.get?_put, if_pos rfl]
  · obtain ⟨doc, hdoc, hwritten⟩ :=
      (Model.inherited_writers hc).exists_doc hc.distinct w.settings.inherits he
    refine ⟨doc, hdoc, fun r hr => ?_⟩
    obtain ⟨o, ho, href, hwriter⟩ := hwritten r hr
    refine ⟨o, ho, href, hwriter.imp_right fun hdown => hdown.mem_overridden_or hc,
      fun hexternal => ?_⟩
    obtain ⟨s, hresolve, hreported⟩ :=
      hc.resolveAll_reported (nodup_sites_of_extract h) hexternal w.resolutions
    have hmem : (o, r) ∈ x.model.references :=
      List.mem_flatMap.2 ⟨o, ho, List.mem_map_of_mem href⟩
    obtain ⟨houtcome, hheld, -⟩ := hreported.outcomes _ hmem
    rw [hrun, hresolve]
    exact ⟨_, houtcome, hheld⟩

theorem references_resolved_where_written_layers :
    ∃ x v, extract 0 .declaring layers = .ok x ∧
      (usedWorkspace x.model).models.get? "layers" = some x.model ∧
      (usedWorkspace x.model).run [.resolveAll "layers", .aggregate "layers" "shown"] =
        (usedWorkspace x.model).run [.aggregate "layers" "shown", .resolveAll "layers"] ∧
      x.model.view true = .ok v ∧
      (v.doc "p.Bottom#run()").references.map (·.site.owner) =
        ["p.Left#run()", "p.Top#run()"] ∧
      ∀ e ∈ x.model.entities, ∃ doc, v.docs.get? e.qualifiedName = some doc ∧
        ∀ r ∈ doc.references, ∃ o ∈ x.model.entities, r ∈ o.references ∧
          ∃ outcome, x.model.resolve o r.text = .ok outcome ∧
            ((usedWorkspace x.model).run
              [.resolveAll "layers", .aggregate "layers" "shown"]).resolutions.get? r =
                some outcome := by
  obtain ⟨x, hx, v, hv, howners⟩ : ∃ x, extract 0 .declaring layers = .ok x ∧
      ∃ v, x.model.view true = .ok v ∧
        (v.doc "p.Bottom#run()").references.map (·.site.owner) =
          ["p.Left#run()", "p.Top#run()"] := by
    refine ⟨_, rfl, _, rfl, ?_⟩
    decide +kernel
  have hmodel : (usedWorkspace x.model).models.get? "layers" = some x.model := rfl
  have hpackages : (usedWorkspace x.model).settings.get? "external_packages" =
      some (.list (["java", "q"].map .text)) := by rfl
  obtain ⟨v', hv', hrun, -, hwritten⟩ := references_resolved_where_written hx hmodel "shown"
  obtain rfl : v = v' := Except.ok.inj (hv.symm.trans hv')
  refine ⟨x, v, hx, hmodel, hrun, hv, howners, fun e he => ?_⟩
  obtain ⟨doc, hdoc, hreferences⟩ := hwritten e he
  refine ⟨doc, hdoc, fun r hr => ?_⟩
  obtain ⟨o, ho, href, -, hresolved⟩ := hreferences r hr
  exact ⟨o, ho, href, hresolved (Settings.isExternal_ok hpackages)⟩

/-- Declarations of two types that inherit from each other. One has two methods that a method of the
other overrides alike. -/
def ring : List Declaration :=
  [ { kind := "package", name := "p" },
    { kind := "class", name := "Twin", scope := "p", superclass := some "Ring" },
    { kind := "method", name := "turn", scope := "p.Twin",
      parameters := some [⟨"by", "a.Angle"⟩], comment := "Turns by an \x7b@link Angle\x7d." },
    { kind := "method", name := "turn", scope := "p.Twin",
      parameters := some [⟨"by", "b.Angle"⟩] },
    { kind := "class", name := "Ring", scope := "p", superclass := some "Twin" },
    { kind := "method", name := "turn", scope := "p.Ring",
      parameters := some [⟨"by", "Angle"⟩] } ]

/-- Around a cycle a method is shown with a reference that a method next to it wrote. -/
theorem reference_from_same_type :
    ∃ x v e r, extract 0 .declaring ring = .ok x ∧ x.model.view true = .ok v ∧
      e ∈ x.model.entities ∧ r ∈ (v.doc e.qualifiedName).references ∧
      ∀ o ∈ x.model.entities, r ∈ o.references → o ≠ e ∧ o ∉ x.model.overridden e := by
  obtain ⟨x, hx, v, hv, e, he, r, hr, hwriters⟩ : ∃ x, extract 0 .declaring ring = .ok x ∧
      ∃ v, x.model.view true = .ok v ∧
        ∃ e, x.model.find? "p.Twin#turn(b.Angle)" = some e ∧
          ∃ r ∈ (v.doc e.qualifiedName).references,
            ∀ o ∈ x.model.entities, r ∈ o.references → o ≠ e ∧ o ∉ x.model.overridden e := by
    refine ⟨_, rfl, _, rfl, _, rfl, ?_⟩
    decide +kernel
  exact ⟨x, v, e, r, hx, hv, List.mem_of_find?_eq_some he, hr, hwriters⟩

end ApiDocs
