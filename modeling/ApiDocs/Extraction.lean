import ApiDocs.Comment.Sentence
import ApiDocs.Extraction.Scope
import ApiDocs.Model

/-!
# Extraction

Extraction turns a list of declarations into a model with one entity for each declaration that is
visible enough. The entities of a package stand together: the package, its types, and their members,
each in source order.
-/

namespace ApiDocs

namespace Extraction

/-! ### Documentation -/

/-- The references that mentions make, each at its own place. -/
def referencesAt (place : Nat → Site) (ms : List Comment.Mention) : List Reference :=
  ms.mapIdx fun i m => m.at (place i)

/-- The kind that stands for a tag kind and its other spelling. -/
def tagKind (kind : Text) : Text :=
  if kind = "exception" then "throws" else if kind = "returns" then "return" else kind

/-- The name and the text of a tag. A tag that documents a parameter or an exception and has no name
takes the first word of its text as one. -/
def tagName (t : Declaration.Tag) : Text × Text :=
  if (tagKind t.kind = "param" || tagKind t.kind = "throws") && t.name = [] && t.text ≠ [] then
    let (first, rest) := Text.cutAt ' ' t.text
    (first, Text.trim (rest.getD []))
  else (t.name, t.text)

def tagMention? (kind name text : Text) : Option Comment.Mention :=
  if kind = "see" then Comment.seeMention? text
  else if kind = "throws" && name ≠ [] then some ⟨name, []⟩
  else none

/-- The `k`-th tag of an entity. -/
def tagEntity (site : Place → Site) (k : Nat) (t : Declaration.Tag) : Tag :=
  let kind := tagKind t.kind
  let (name, text) := tagName t
  { kind, name, text
    reference := (tagMention? kind name text).map (·.at (site (.tagTarget k)))
    links := referencesAt (fun i => site (.tagText k i)) (Comment.mentions text) }

def documentation (extraction : Nat) (qualifiedName : Text) (d : Declaration) (e : Entity) :
    Entity :=
  let site := Site.mk extraction qualifiedName
  let (summary, body) := Comment.splitFirstSentence d.comment
  { e with
    qualifiedName, summary, body
    tags := d.tags.mapIdx (tagEntity site)
    links := referencesAt (fun i => site (.text i))
      (Comment.mentions summary ++ Comment.mentions body) }

/-! ### Entities -/

def packageEntity (extraction : Nat) (index : Nat) (d : Declaration) : Entity :=
  documentation extraction d.name d
    { qualifiedName := d.name, category := .package, name := d.name, scope := [], index }

/-- The name of a declared supertype: a type of the model if there is one of that name, or one of
that name in the package; any other name is kept. -/
def qualify (known : Table Text) (package name : Text) : Text :=
  if known.has name then name
  else if known.has (Name.ofType package name) then Name.ofType package name
  else name

/-- The name of a declared interface; an empty name is kept. -/
def qualifyInterface (known : Table Text) (package name : Text) : Text :=
  if name = [] then name else qualify known package name

def typeEntity (extraction : Nat) (known : Table Text) (package : Text) (members : List Text)
    (index : Nat) (d : Declaration) : Entity :=
  documentation extraction d.typeName d
    { qualifiedName := d.typeName
      category := .type
        { flavor := Text.lower d.kind
          members
          supertype := (d.superclass.filter (· ≠ [])).map (qualify known package)
          interfaces := d.interfaces.map (qualifyInterface known package)
          package }
      name := d.name, scope := d.scope, index
      signature := d.signature, modifiers := d.modifiers }

/-- The simple name of a member; a constructor without a name is named after its type. -/
def memberName (d : Declaration) : Text := if d.name = [] then Name.simple d.scope else d.name

def memberKind (d : Declaration) : MemberKind :=
  match Kind.ofDeclared? d.kind with
  | some (.member k) => k
  | _ => .field

def memberQualifiedName (d : Declaration) : Text :=
  if memberKind d = .field then Name.ofField d.scope (memberName d)
  else Name.ofCallable d.scope (memberName d) ((d.parameters.getD []).map (·.type))

def memberEntity (extraction : Nat) (index : Nat) (d : Declaration) : Entity :=
  documentation extraction (memberQualifiedName d) d
    { qualifiedName := memberQualifiedName d
      category := .member (memberKind d)
      name := memberName d, scope := d.scope, index
      parameterTypes := (d.parameters.getD []).map (·.type)
      parameterNames := (d.parameters.getD []).map (·.name)
      returnType := if d.returns = [] then d.type else d.returns
      signature := d.signature, modifiers := d.modifiers }

/-! ### Order in a scope -/

def countInScope (scope : Text) (ds : List Declaration) : Nat :=
  ds.countP (·.scope = scope)

/-- Number declarations within their scopes, after those that stand before. -/
def numbered (before : List Declaration) : List Declaration → List (Nat × Declaration)
  | [] => []
  | d :: ds => (countInScope d.scope before, d) :: numbered (before ++ [d]) ds

/-- The first member whose scope is not a type is a failure. -/
def checkScopes (known : Table Text) : List Declaration → Except Failure Unit
  | [] => .ok ()
  | d :: ds =>
    if known.has d.scope then checkScopes known ds
    else .error (.malformed (if d.name = [] then d.scope else d.name) (.memberOutsideType d.scope))

/-! ### Partitions -/

def addTo (parts : Table Model) (placed : Text × Entity) : Except Failure (Table Model) := do
  let part ← (← require parts placed.1).add placed.2
  return parts.put placed.1 part

/-- The entities of members; in a scope, types are numbered before members. -/
def memberEntities (extraction : Nat) (s : Sorted) : List Entity :=
  (numbered s.types s.members).map fun nd => memberEntity extraction nd.1 nd.2

def memberNames (members : List Entity) (scope : Text) : List Text :=
  (members.filter (·.scope = scope)).map (·.qualifiedName)

def placedType (extraction : Nat) (known : Table Text) (members : List Entity)
    (nd : Nat × Declaration) : Except Failure (Text × Entity) := do
  let package ← require known nd.2.typeName
  return (package,
    typeEntity extraction known package (memberNames members nd.2.typeName) nd.1 nd.2)

def placedMember (known : Table Text) (e : Entity) : Except Failure (Text × Entity) :=
  (·, e) <$> require known e.scope

/-- The entities of sorted declarations with the package of each: packages, then types, then
members. -/
def placedEntities (extraction : Nat) (s : Sorted) (known : Table Text) :
    Except Failure (List (Text × Entity)) := do
  let members := memberEntities extraction s
  let packages := s.packages.mapIdx fun i d => (d.name, packageEntity extraction i d)
  let types ← (numbered [] s.types).mapM (placedType extraction known members)
  let members ← members.mapM (placedMember known)
  return packages ++ types ++ members

end Extraction

open Extraction

/-- The model of sorted declarations that are all visible enough. -/
def Model.ofSorted (extraction : Nat) (s : Sorted) : Except Failure Model := do
  checkDistinct [] (s.types.map (·.typeName))
  let packages := s.packages.map (·.name)
  let known ← typePackages packages s.types
  checkScopes known s.members
  let empty : Table Model := .ofEntries (packages.map fun p => (p, {}))
  let placed ← placedEntities extraction s known
  let parts ← placed.foldlM addTo empty
  let merged ← Model.merge (parts.entries.map (·.2))
  return merged.indexAncestors.indexPackages

/-- What an extraction yields: the model, and how many packages and types were visible enough. -/
structure Extracted where
  model : Model
  packageCount : Nat
  typeCount : Nat

/-- Extract a model from sorted declarations, leaving out what is less visible than the limit. -/
def Extraction.Sorted.extract (extraction : Nat) (limit : Visibility) (s : Sorted) :
    Except Failure Extracted := do
  let kept := s.restrict limit
  let model ← Model.ofSorted extraction kept
  return ⟨model, kept.packages.length, kept.types.length⟩

/-- Extract a model from declarations, leaving out what is less visible than the limit. -/
def extract (extraction : Nat) (limit : Visibility) (ds : List Declaration) :
    Except Failure Extracted := do
  (← Sorted.ofDeclarations ds).extract extraction limit

end ApiDocs
