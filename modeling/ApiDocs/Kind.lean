import ApiDocs.Text.Blank
import ApiDocs.Text.Case

/-!
# Kinds of entities

Every entity is a package, a type, or a member of a type. A declaration names its kind in words; a
type declaration names its flavor.
-/

namespace ApiDocs

/-- The kinds of members of a type. -/
inductive MemberKind where
  | field | constructor | method
  deriving DecidableEq, Repr

/-- The kinds of entities. -/
inductive Kind where
  | package | type | member (k : MemberKind)
  deriving DecidableEq, Repr

namespace Kind

/-- The reduced words of declarations with the kinds that they name. -/
def words : List (Text × Kind) :=
  [("package", package), ("class", type), ("interface", type), ("enum", type),
    ("annotation", type), ("record", type), ("field", member .field),
    ("enumconstant", member .field), ("constructor", member .constructor),
    ("method", member .method)]

/-- The word of a declaration without the white space at its ends, in lower case, and without
underscores and spaces. -/
def reduceWord (word : Text) : Text :=
  (Text.lower (Text.trim word)).filter fun c => c != '_' && c != ' '

def ofDeclared? (word : Text) : Option Kind := words.lookup (reduceWord word)

def name : Kind → Text
  | package => "package"
  | type => "type"
  | member .field => "field"
  | member .constructor => "constructor"
  | member .method => "method"

def all : List Kind := [package, type, member .field, member .constructor, member .method]

def ofName? (name : Text) : Option Kind := all.find? (·.name = name)

def isMember : Kind → Bool
  | member _ => true
  | _ => false

end Kind

/-- Constructors come first, then fields, then methods. -/
def MemberKind.rank : MemberKind → Nat
  | constructor => 0
  | field => 1
  | method => 2

end ApiDocs
