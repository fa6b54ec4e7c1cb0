import ApiDocs.Documents
import ApiDocs.Extraction

/-!
# Workspaces

A workspace holds named models and views with the settings, resolutions and report that they share.
Models are built step by step: extracted, merged, or put together entity by entity. A step that
fails leaves every model as it was.
-/

namespace ApiDocs

/-- Named models and views, and what they share. -/
structure Workspace where
  settings : Settings := .defaults
  models : Table Model := .empty
  views : Table View := .empty
  resolutions : Resolutions := {}
  report : Report := {}
  /-- How many extractions and additions were begun; each makes references of its own. -/
  extractions : Nat := 0

namespace Workspace

/-- A step that changes a workspace. -/
inductive Step where
  /-- Set settings, unchecked. -/
  | configure (entries : List (Value × Value))
  /-- Extract a model from declarations. -/
  | extract (declarations : List Declaration) (name : Text)
  /-- Make an empty model. -/
  | create (name : Text)
  /-- Merge models in the order given. -/
  | merge (models : List Text) (name : Text)
  /-- Add an entity to a model, with resolutions that its references have from the start. -/
  | add (model : Text) (entity : Entity) (resolutions : Resolutions)
  /-- Compute the table of package types of a model. -/
  | indexPackages (model : Text)
  /-- Compute the table of ancestors of a model. -/
  | indexAncestors (model : Text)
  /-- Resolve every reference of a model. -/
  | resolveAll (model : Text)
  /-- Empty the report. -/
  | clearReport
  /-- Make the view of a model. -/
  | aggregate (model name : Text)

def model (w : Workspace) (name : Text) : Except Failure Model :=
  match w.models.get? name with
  | some m => .ok m
  | none => .error .noEntry

def view (w : Workspace) (name : Text) : Except Failure View :=
  match w.views.get? name with
  | some v => .ok v
  | none => .error .noEntry

def putModel (w : Workspace) (name : Text) (m : Model) : Workspace :=
  { w with models := w.models.put name m }

/-- A model extracted from declarations with the settings of the workspace. -/
def extracted (w : Workspace) (ds : List Declaration) : Except Failure Extracted := do
  let sorted ← Extraction.Sorted.ofDeclarations ds
  sorted.extract w.extractions (← w.settings.visibility)

/-- Keep the model that a computation yields under a name; a failure changes nothing. -/
def keep (w : Workspace) (name : Text) (m : Except Failure Model) : Workspace × Option Failure :=
  match m with
  | .ok m => (w.putModel name m, none)
  | .error e => (w, some e)

/-- Carry out a step; where it fails, the failure goes with the workspace that is left. -/
def apply (w : Workspace) : Step → Workspace × Option Failure
  | .configure es => ({ w with settings := w.settings.setAll es }, none)
  | .extract ds name =>
    { w with extractions := w.extractions + 1 }.keep name ((w.extracted ds).map Extracted.model)
  | .create name => (w.putModel name {}, none)
  | .merge names name => w.keep name (names.mapM w.model >>= Model.merge)
  | .add name e resolutions =>
    { w with
      extractions := w.extractions + 1
      resolutions := ⟨resolutions.entries ++ w.resolutions.entries⟩ }.keep name
      (w.model name >>= (·.add e))
  | .indexPackages name => w.keep name (Model.indexPackages <$> w.model name)
  | .indexAncestors name => w.keep name (Model.indexAncestors <$> w.model name)
  | .resolveAll name =>
    match w.model name with
    | .error e => (w, some e)
    | .ok m =>
      let (outcome, failure) := m.resolveAll w.settings w.resolutions
      ({ w with resolutions := outcome.resolutions, report := outcome.report }, failure)
  | .clearReport => ({ w with report := {} }, none)
  | .aggregate model name =>
    match w.model model >>= (·.view w.settings.inherits) with
    | .error e => (w, some e)
    | .ok v => ({ w with views := w.views.put name v }, none)

/-- Carry out steps one after the other; a step that fails changes no model. -/
def run (w : Workspace) (steps : List Step) : Workspace := steps.foldl (fun w s => (w.apply s).1) w

end Workspace

end ApiDocs
