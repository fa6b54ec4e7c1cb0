import ApiDocs.Documents
import ApiDocs.Extraction

/-!
# Documentation runs

A run takes declarations through every stage: extraction, resolution of references, the ordered
view, and the documents. Nothing is written before all documents are made.
-/

namespace ApiDocs

/-- Everything that a run makes. -/
structure Run where
  model : Model
  resolutions : Resolutions
  report : Report
  view : View
  documents : Documents
  notes : List Note

def Run.ofDeclarations (settings : Settings) (ds : List Declaration) : Except Failure Run := do
  let sorted ← Extraction.Sorted.ofDeclarations ds
  let extracted ← sorted.extract 0 (← settings.visibility)
  let model := extracted.model
  let (resolving, failure) := model.resolveAll settings {}
  if let some e := failure then throw e
  let view ← model.view settings.inherits
  let documents ← model.documents view settings resolving.resolutions
  return {
    model, view, documents
    resolutions := resolving.resolutions
    report := resolving.report
    notes :=
      .extracted model.entities.length extracted.packageCount extracted.typeCount ::
        resolving.notes ++ [.inherited view.inheritedCount] }

end ApiDocs
