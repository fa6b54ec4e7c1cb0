import ApiDocs.Model
import ApiDocs.Name.MemberReference

/-!
# Looking up references

A reference is looked up from the entity that owns it. An exact qualified name comes first. A member
is looked for in the enclosing type, then in its ancestors, nearest first. A type is looked for by
its exact name, then as a nested type of the enclosing type and of its ancestors, then among the
types of the package in the order of their names.
-/

namespace ApiDocs

namespace Model

variable (m : Model)

/-- The type that encloses an entity; a type encloses itself. -/
def enclosingType? (owner : Entity) : Option TypeEntity :=
  match owner.asType? with
  | some t => some t
  | none => m.findType? owner.scope

def enclosingPackage (owner : Entity) : Text :=
  match m.enclosingType? owner with
  | some t => t.info.package
  | none => if owner.category = .package then owner.qualifiedName else []

/-- A type and its ancestors, nearest first. -/
def lineage (type : Text) : List Text := type :: m.ancestorsOf type

/-! ### Members -/

/-- Fields are preferred to constructors and methods; other entities cannot be ranked. -/
def preference (e : Entity) : Except Failure Nat :=
  match e.category with
  | .member .field => .ok 0
  | .member _ => .ok 1
  | _ => .error .noEntry

/-- Whether a member has a name and, where a parameter list is given, a parameter list that
matches. -/
def memberMatches (name : Text) (parameters : Option (List Text)) (e : Entity) : Bool :=
  e.name = name &&
    match parameters with
    | none => true
    | some ps => ! e.isField && Name.parametersMatch e.parameterTypes ps

/-- Whether a ranked member comes before another: by preference, then by declaration. -/
def ranksBefore (a b : Nat × Entity) : Bool :=
  a.1 < b.1 || (a.1 = b.1 && a.2.index < b.2.index)

/-- The first of the ranked members that no other comes before. -/
def best : List (Nat × Entity) → Option (Nat × Entity)
  | [] => none
  | e :: es =>
    match best es with
    | some b => if ranksBefore b e then some b else some e
    | none => some e

def matchIn (type name : Text) (parameters : Option (List Text)) :
    Except Failure (Option Text) := do
  let candidates := (m.membersOf type).filter (memberMatches name parameters)
  let ranked ← candidates.mapM fun e => (·, e) <$> preference e
  return (best ranked).map (·.2.qualifiedName)

def firstMatch (name : Text) (parameters : Option (List Text)) :
    List Text → Except Failure (Option Text)
  | [] => .ok none
  | type :: types => do
    match ← m.matchIn type name parameters with
    | some found => return some found
    | none => firstMatch name parameters types

/-- The matching member of a type or of its nearest ancestor that has one. -/
def lookupMember (start : Option TypeEntity) (name : Text)
    (parameters : Option (List Text)) : Except Failure (Option Text) :=
  match start with
  | some t =>
    if name = [] then .ok none else m.firstMatch name parameters (m.lineage t.qualifiedName)
  | none => .ok none

/-! ### Types -/

/-- Whether a type has a simple name, or a qualified name that ends in one after a dot. -/
def typeMatches (name : Text) (t : TypeEntity) : Bool :=
  t.entity.name = name || ("." ++ name).isSuffixOf t.qualifiedName

/-- The type that a name stands for, seen from an enclosing type and a package. -/
def lookupType (name : Text) (enclosing : Option TypeEntity) (package : Text) :
    Option TypeEntity :=
  let nested := (enclosing.map fun t => m.lineage t.qualifiedName).getD []
  (m.findType? name).or
    ((nested.findSome? fun scope => m.findType? (scope ++ "." ++ name)).or
      ((m.typesInPackage package).find? (typeMatches name)))

/-! ### References -/

/-- The qualified name that the parts of a reference stand for, seen from an entity. -/
def lookup (owner : Entity) (text : Text) : Except Failure (Option Text) := do
  let parts := Name.MemberReference.ofText text
  let enclosing := m.enclosingType? owner
  let package := m.enclosingPackage owner
  if parts.type ≠ [] then
    match m.lookupType parts.type enclosing package with
    | some t => m.lookupMember (some t) parts.member parts.parameters
    | none => return none
  else if text.head? = some '#' || parts.parameters.isSome then
    m.lookupMember enclosing parts.member parts.parameters
  else
    match ← m.lookupMember enclosing parts.member none with
    | some found => return some found
    | none => return (m.lookupType parts.member enclosing package).map (·.qualifiedName)

/-- What the text of a reference resolves to, seen from an entity. -/
def resolve (owner : Entity) (text : Text) : Except Failure Resolution := do
  let text := Text.trim text
  if m.has text then return .link text
  else match ← m.lookup owner text with
    | some found => return if found = [] then .unresolved text else .link found
    | none => return .unresolved text

end Model

end ApiDocs
