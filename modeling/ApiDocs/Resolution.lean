import ApiDocs.Resolution.Lookup
import ApiDocs.Resolution.Report
import ApiDocs.Settings

/-!
# Resolution of references

Every reference of a model is resolved from the entity that owns it. The outcomes go into the table
of resolutions and into the report, and each unresolved reference is noted. A failure in the middle
leaves the outcomes before it in place.
-/

namespace ApiDocs

open Text

/-- What a run notes down about its stages. -/
inductive Note where
  | extracted (entities packages types : Nat)
  | unresolved (external : Bool) (text owner : Text)
  | resolved (linked total : Nat)
  | inherited (members : Nat)
  deriving DecidableEq, Repr

namespace Note

/-- Whether a note is of interest only when looking for a fault. -/
def isDetail : Note → Bool
  | unresolved external _ _ => external
  | _ => false

def message : Note → Text
  | extracted entities packages types =>
    "Extracted " ++ natural entities ++ " entities from " ++ natural packages ++
      " packages and " ++ natural types ++ " types"
  | unresolved _ text owner => "Unresolved reference " ++ quoted text ++ " in " ++ owner
  | resolved linked total =>
    "Resolved " ++ natural linked ++ " of " ++ natural total ++ " references"
  | inherited members =>
    "Merged inherited documentation into " ++ natural members ++ " members"

end Note

/-- The outcomes of resolving references: the resolutions, the report and the notes. -/
structure Resolving where
  resolutions : Resolutions := {}
  report : Report := {}
  notes : List Note := []

namespace Resolving

def record (s : Resolving) (owner : Entity) (r : Reference) (outcome : Resolution) : Resolving :=
  { s with
    resolutions := s.resolutions.set r outcome
    report := s.report.add owner.qualifiedName r.text outcome }

/-- Note an unresolved reference; whether it lies in an external package has to be known. -/
def noteOutcome (s : Resolving) (settings : Settings) (owner : Entity) (r : Reference) :
    Resolution → Except Failure Resolving
  | .link _ => .ok s
  | .unresolved _ => do
    let external ← settings.isExternal r.text
    return { s with notes := s.notes ++ [.unresolved external r.text owner.qualifiedName] }

/-- Resolve references one after the other, up to the first failure. -/
def each (m : Model) (settings : Settings) (s : Resolving) :
    List (Entity × Reference) → Resolving × Option Failure
  | [] => (s, none)
  | (owner, r) :: rest =>
    match m.resolve owner r.text with
    | .error e => (s, some e)
    | .ok outcome =>
      let s := s.record owner r outcome
      match s.noteOutcome settings owner r outcome with
      | .error e => (s, some e)
      | .ok s => each m settings s rest

end Resolving

/-- Resolve every reference of a model. The report starts anew. -/
def Model.resolveAll (m : Model) (settings : Settings) (resolutions : Resolutions) :
    Resolving × Option Failure :=
  let (s, failure) := Resolving.each m settings { resolutions } m.references
  match failure with
  | some e => (s, some e)
  | none =>
    ({ s with notes := s.notes ++ [.resolved s.report.resolved.length s.report.total] }, none)

def Model.unresolvedReferences (m : Model) (rs : Resolutions) : List Reference :=
  (m.references.map (·.2)).filter fun r =>
    match rs.get? r with
    | some (.unresolved _) => true
    | _ => false

end ApiDocs
