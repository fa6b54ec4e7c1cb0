import ApiDocs.Entity.Reference
import ApiDocs.Kind

/-!
# Entities

An entity is a package, a type or a member with its own documentation. Types also know their
members and supertypes, by name only.
-/

namespace ApiDocs

/-- A block tag of an entity. -/
structure Tag where
  kind : Text
  name : Text := []
  text : Text := []
  reference : Option Reference := none
  links : List Reference := []
  deriving DecidableEq, Repr

/-- The references of a tag: its target, then the links of its text. -/
def Tag.references (t : Tag) : List Reference := t.reference.toList ++ t.links

def tagsOf (kind : Text) (tags : List Tag) : List Tag := tags.filter (·.kind = kind)

/-- What a type has beyond other entities. -/
structure TypeInfo where
  flavor : Text := "class"
  members : List Text := []
  supertype : Option Text := none
  interfaces : List Text := []
  package : Text := []
  deriving DecidableEq, Repr

/-- The declared supertypes: the superclass, then the interfaces. -/
def TypeInfo.parents (t : TypeInfo) : List Text :=
  (t.supertype.toList.filter (· ≠ [])) ++ t.interfaces

/-- What an entity is. -/
inductive Category where
  | package
  | type (info : TypeInfo)
  | member (kind : MemberKind)
  deriving DecidableEq, Repr

/-- A package, type or member with its own documentation. -/
structure Entity where
  qualifiedName : Text
  category : Category
  name : Text
  scope : Text
  summary : Text := []
  body : Text := []
  tags : List Tag := []
  links : List Reference := []
  index : Int := 0
  parameterTypes : List Text := []
  parameterNames : List Text := []
  returnType : Text := []
  signature : Text := []
  modifiers : List Text := []
  deriving DecidableEq, Repr

namespace Entity

def kind (e : Entity) : Kind :=
  match e.category with
  | .package => .package
  | .type _ => .type
  | .member k => .member k

def typeInfo? (e : Entity) : Option TypeInfo :=
  match e.category with
  | .type info => some info
  | _ => none

/-- Whether an entity has a tag that says that it is deprecated. -/
def deprecated (e : Entity) : Bool := e.tags.any (·.kind = "deprecated")

def documented (e : Entity) : Bool := e.summary ≠ [] || e.body ≠ []

/-- The references of an entity: those of its text, then those of its tags. -/
def references (e : Entity) : List Reference := e.links ++ e.tags.flatMap Tag.references

def isField (e : Entity) : Bool := e.category = .member .field

def isMethod (e : Entity) : Bool := e.category = .member .method

def isConstructor (e : Entity) : Bool := e.category = .member .constructor

end Entity

/-- A type entity together with its type information. -/
structure TypeEntity where
  entity : Entity
  info : TypeInfo
  deriving DecidableEq, Repr

abbrev TypeEntity.qualifiedName (t : TypeEntity) : Text := t.entity.qualifiedName

def Entity.asType? (e : Entity) : Option TypeEntity := e.typeInfo?.map fun info => ⟨e, info⟩

end ApiDocs
