import ApiDocs.Text

/-!
# Declarations

A declaration model is a flat list: each declaration names the scope that encloses it, a package or
a type, and the list is in source order.
-/

namespace ApiDocs

namespace Declaration

/-- A block tag as it was declared. -/
structure Tag where
  kind : Text
  text : Text := []
  name : Text := []
  deriving DecidableEq, Repr

/-- A parameter of a constructor or method. -/
structure Parameter where
  name : Text
  type : Text
  deriving DecidableEq, Repr

end Declaration

/-- A declared package, type or member. -/
structure Declaration where
  kind : Text
  name : Text
  scope : Text := []
  comment : Text := []
  tags : List Declaration.Tag := []
  superclass : Option Text := none
  interfaces : List Text := []
  parameters : Option (List Declaration.Parameter) := none
  returns : Text := []
  type : Text := []
  modifiers : List Text := []
  signature : Text := []
  deriving DecidableEq, Repr

/-- Where a declaration is visible. -/
inductive Visibility where
  | everywhere | inheriting | package | declaring
  deriving DecidableEq, Repr

namespace Visibility

/-- A smaller rank is visible more widely. -/
def rank : Visibility → Nat
  | everywhere => 0
  | inheriting => 1
  | package => 2
  | declaring => 3

def words : List (Text × Visibility) :=
  [("public", everywhere), ("protected", inheriting), ("package", package),
    ("private", declaring)]

def ofModifier? (modifier : Text) : Option Visibility :=
  words.lookup modifier

end Visibility

/-- The visibility that the first of the modifiers says; without one it is that of the package. -/
def Declaration.visibility (d : Declaration) : Visibility :=
  (d.modifiers.findSome? Visibility.ofModifier?).getD .package

end ApiDocs
