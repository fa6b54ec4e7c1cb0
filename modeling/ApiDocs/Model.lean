import ApiDocs.Ancestry
import ApiDocs.Entity
import ApiDocs.Failure
import ApiDocs.Sorting

/-!
# The entity model

The model holds every entity once, in extraction order, with two tables computed from its types: the
ancestors of each type and the types of each package. Models extracted apart are merged in the order
given; a name in two of them is a failure.
-/

namespace ApiDocs

/-- The entities and the tables computed from them. -/
structure Model where
  entities : List Entity := []
  ancestors : Table (List Text) := .empty
  packageTypes : Table (List Text) := .empty
  deriving Repr

namespace Model

instance : Inhabited Model := ⟨{}⟩

def names (m : Model) : List Text := m.entities.map (·.qualifiedName)

def find? (m : Model) (name : Text) : Option Entity :=
  m.entities.find? (·.qualifiedName = name)

def has (m : Model) (name : Text) : Bool := (m.find? name).isSome

def findType? (m : Model) (name : Text) : Option TypeEntity :=
  if name = [] then none else (m.find? name).bind Entity.asType?

/-- Add an entity at the end; a name that is there is a failure. -/
def add (m : Model) (e : Entity) : Except Failure Model :=
  if m.has e.qualifiedName then .error (.duplicate e.qualifiedName)
  else .ok { m with entities := m.entities ++ [e] }

def ofKind (m : Model) (k : Kind) : List Entity := m.entities.filter (·.kind = k)

def types (m : Model) : List TypeEntity := m.entities.filterMap Entity.asType?

def membersOf (m : Model) (type : Text) : List Entity :=
  match m.findType? type with
  | some t => t.info.members.filterMap m.find?
  | none => []

/-- The names of the types of each package, sorted. -/
def packageIndex (m : Model) : Table (List Text) :=
  let grouped := m.types.foldl
    (fun (t : Table (List Text)) e => t.update e.info.package [] (· ++ [e.qualifiedName])) .empty
  ⟨grouped.entries.map fun e => (e.1, sortNames e.2)⟩

/-- The model with its table of package types computed anew. -/
def indexPackages (m : Model) : Model := { m with packageTypes := m.packageIndex }

def supertypes (m : Model) : Supertypes :=
  .ofEntries (m.types.map fun t => (t.qualifiedName, t.info.parents))

/-- The model with its table of ancestors computed anew. -/
def indexAncestors (m : Model) : Model := { m with ancestors := m.supertypes.ancestors }

/-- The types that the table lists for a package, sorted. -/
def typesInPackage (m : Model) (package : Text) : List TypeEntity :=
  ((m.packageTypes.get? package).getD []).filterMap m.findType?

/-- The ancestors that the table lists for a type, nearest first. -/
def ancestorsOf (m : Model) (type : Text) : List Text := (m.ancestors.get? type).getD []

/-- Every reference with the entity that owns it, in entity order. -/
def references (m : Model) : List (Entity × Reference) :=
  m.entities.flatMap fun e => e.references.map fun r => (e, r)

def addAll (m : Model) : List Entity → Except Failure Model
  | [] => .ok m
  | e :: es => m.add e >>= (addAll · es)

/-- Merge a model into another. -/
def absorb (m part : Model) : Except Failure Model := do
  let m ← m.addAll part.entities
  return { m with
    ancestors := m.ancestors.putAll part.ancestors.entries
    packageTypes := m.packageTypes.putAll part.packageTypes.entries }

/-- Merge models in the order given. -/
def merge (parts : List Model) : Except Failure Model := parts.foldlM absorb {}

end Model

end ApiDocs
