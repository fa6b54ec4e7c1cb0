import ApiDocs.Proofs.AlikeViews

/-!
# One table for all documentation

A view merges the documentation of all entities with one table. Without cycles among the supertypes
that is the documentation that each entity has by itself. What stands in for a member while it is
being merged is never read: anything else in its place gives the same documentation, and so does any
other order of the entities.
-/

namespace ApiDocs

/-- The documentation in the view of an extracted model without cycles is that of each entity by
itself, which is its own merged with that of the members it overrides. Neither the order in which
entities share a table nor what stands in for members that are being merged makes a difference. -/
theorem docs_of_shared_table {n : Nat} {limit : Visibility} {ds : List Declaration} {x : Extracted}
    (h : extract n limit ds = .ok x) (ha : x.model.Acyclic) :
    (∃ v, x.model.view true = .ok v ∧
      ∀ e ∈ x.model.entities, v.doc e.qualifiedName = x.model.mergedDoc e) ∧
    (∀ e ∈ x.model.entities, x.model.mergedDoc e =
      mergeDoc e ((x.model.overridden e).map fun o => (o, x.model.mergedDoc o))) ∧
    ∀ (standIn : Entity → MergedDoc) (order : List Entity), (∀ e ∈ order, e ∈ x.model.entities) →
      x.model.mergedInOrder standIn order =
        order.map fun e => (e.qualifiedName, x.model.mergedDoc e) := by
  have hc : x.model.Consistent := consistent_of_extract h
  refine ⟨⟨x.model.viewOf true, hc.view_eq true, fun e he => ?_⟩, fun e he => ?_,
    fun standIn order horder => ?_⟩
  · rw [Model.doc_viewOf hc ha, Model.find?_of_mem hc.distinct he, Model.mergedDoc_eq hc ha he]
    rfl
  · rw [Model.mergedDoc_eq hc ha he, Model.fullDoc_eq hc ha]
    congr 1
    apply List.map_congr_left
    intro o ho
    rw [Model.mergedDoc_eq hc ha (hc.inherits_of_mem_overridden ho).1]
  · rw [Model.mergedInOrder_eq hc ha standIn horder]
    apply List.map_congr_left
    intro e he
    rw [Model.mergedDoc_eq hc ha (horder e he)]

/-- Declarations of a method that is inherited along two ways, with the lowest type first. -/
def layers : List Declaration :=
  [ { kind := "package", name := "p" },
    { kind := "class", name := "Bottom", scope := "p", interfaces := ["Left", "Right"] },
    { kind := "method", name := "run", scope := "p.Bottom",
      comment := "\x7b@inheritDoc\x7d Below it ends. \x7b@inheritDoc\x7d" },
    { kind := "interface", name := "Right", scope := "p", interfaces := ["Top"] },
    { kind := "method", name := "run", scope := "p.Right" },
    { kind := "interface", name := "Left", scope := "p", interfaces := ["Top"] },
    { kind := "method", name := "run", scope := "p.Left",
      comment := "See \x7b@link Top#run(int) the rest\x7d. \x7b@inheritDoc\x7d" },
    { kind := "interface", name := "Top", scope := "p" },
    { kind := "method", name := "run", scope := "p.Top",
      comment := "Runs \x7b@link Right\x7d. Then \x7b@linkplain Left it\x7d rests." } ]

theorem docs_of_shared_table_layers :
    ∃ x, extract 0 .declaring layers = .ok x ∧ x.model.Acyclic ∧
      (∃ v, x.model.view true = .ok v ∧
        ∀ e ∈ x.model.entities, v.doc e.qualifiedName = x.model.mergedDoc e) ∧
      x.model.mergedInOrder (fun _ => {}) x.model.entities.reverse =
        x.model.entities.reverse.map fun e => (e.qualifiedName, x.model.mergedDoc e) := by
  obtain ⟨x, hx, ha⟩ : ∃ x, extract 0 .declaring layers = .ok x ∧ x.model.Acyclic :=
    ⟨_, rfl, Model.acyclic_of_rank List.length (by decide)⟩
  obtain ⟨hview, -, horder⟩ := docs_of_shared_table hx ha
  exact ⟨x, hx, ha, hview, horder _ _ fun _ he => List.mem_reverse.1 he⟩

end ApiDocs
