import ApiDocs.Resolution
import ApiDocs.View.MergedDoc

/-!
# The ordered view of a model

The view lists what is emitted, in order: packages by name, the types of a package by name, and the
members of a type with constructors first, then fields, then methods, each in the order of
declaration. With it goes the merged documentation of every entity.
-/

namespace ApiDocs

/-- The order of emission and the documentation to emit. -/
structure View where
  packages : List Text := []
  typesByPackage : Table (List Text) := .empty
  membersByType : Table (List Text) := .empty
  docs : Table MergedDoc := .empty
  deriving Repr

instance : Inhabited View := ⟨{}⟩

namespace View

def typesOf (v : View) (package : Text) : List Text :=
  (v.typesByPackage.get? package).getD []

def membersOf (v : View) (type : Text) : List Text := (v.membersByType.get? type).getD []

/-- Every qualified name in the order of emission. -/
def sequence (v : View) : List Text :=
  v.packages.flatMap fun p => p :: (v.typesOf p).flatMap fun t => t :: v.membersOf t

/-- The documentation of an entity; empty for an unknown name. -/
def doc (v : View) (name : Text) : MergedDoc := (v.docs.get? name).getD {}

end View

/-- The place of a member in the order of emission; other entities have none. -/
def Entity.memberRank (e : Entity) : Except Failure Nat :=
  match e.category with
  | .member k => .ok k.rank
  | _ => .error .noEntry

/-- Whether a ranked member is emitted no later than another. -/
def emittedBefore (a b : Nat × Entity) : Bool :=
  a.1 < b.1 || (a.1 = b.1 && a.2.index ≤ b.2.index)

/-- Members in the order of emission. -/
def orderMembers (es : List Entity) : Except Failure (List Entity) := do
  let ranked ← es.mapM fun e => (·, e) <$> e.memberRank
  return (sortBy emittedBefore ranked).map (·.2)

namespace Model

/-- The documentation of every entity, inherited documentation merged in or not. -/
def docs (m : Model) (inherits : Bool) : List (Text × MergedDoc) :=
  if inherits then m.mergedDocs
  else m.entities.map fun e => (e.qualifiedName, .own e)

def view (m : Model) (inherits : Bool) : Except Failure View := do
  let packages := sortNames ((m.ofKind .package).map (·.qualifiedName))
  let members ← m.types.mapM fun t => do
    let ordered ← orderMembers (m.membersOf t.qualifiedName)
    return (t.qualifiedName, ordered.map (·.qualifiedName))
  return {
    packages
    typesByPackage := .ofEntries
      (packages.map fun p => (p, (m.typesInPackage p).map (·.qualifiedName)))
    membersByType := .ofEntries members
    docs := .ofEntries (m.docs inherits) }

end Model

/-- How many entities took their text from another. -/
def View.inheritedCount (v : View) : Nat :=
  v.docs.entries.countP fun e => e.2.inheritedFrom.any (· ≠ [])

end ApiDocs
