import ApiDocs.Declaration
import ApiDocs.Failure
import ApiDocs.Kind
import ApiDocs.Name.Qualified
import ApiDocs.Table

/-!
# Scopes

Declarations are sorted by kind, those that are not visible enough are left out together with
everything inside them, and every type is followed outward through its enclosing types to the
package that it belongs to.
-/

namespace ApiDocs

def Declaration.typeName (d : Declaration) : Text := Name.ofType d.scope d.name

/-- The kind of a declaration that has a known kind and, unless it is a constructor, a name. -/
def Declaration.checkKind (d : Declaration) : Except Failure Kind :=
  match Kind.ofDeclared? d.kind with
  | none => .error (.malformed d.name (.unknownKind d.kind))
  | some k =>
    if d.name = [] && k ≠ .member .constructor then .error (.malformed d.scope (.unnamed d.kind))
    else .ok k

namespace Extraction

/-- Declarations by kind, in source order. -/
structure Sorted where
  packages : List Declaration := []
  types : List Declaration := []
  members : List Declaration := []
  deriving DecidableEq, Repr

/-- Put a declaration in front of those of its kind. -/
def Sorted.cons (d : Declaration) (s : Sorted) : Kind → Sorted
  | .package => { s with packages := d :: s.packages }
  | .type => { s with types := d :: s.types }
  | .member _ => { s with members := d :: s.members }

/-- Sort declarations by kind; the first one without a known kind or a name is a failure. -/
def Sorted.ofDeclarations : List Declaration → Except Failure Sorted
  | [] => .ok {}
  | d :: ds => do
    let k ← d.checkKind
    return (← ofDeclarations ds).cons d k

/-! ### Visibility -/

/-- Add the types inside hidden ones until there are no more. The first argument bounds the number
of rounds. -/
def closeHidden : Nat → List Declaration → List Text → List Text
  | 0, _, hidden => hidden
  | rounds + 1, types, hidden =>
    let nested := (types.filter (·.scope ∈ hidden)).map (·.typeName)
    if nested.all (· ∈ hidden) then hidden
    else closeHidden rounds types (hidden ++ nested)

/-- The names of the types that are less visible than the limit, or inside one that is. -/
def hiddenTypes (limit : Visibility) (types : List Declaration) : List Text :=
  closeHidden types.length types
    ((types.filter (limit.rank < ·.visibility.rank)).map (·.typeName))

/-- Leave out what is less visible than the limit, with everything inside it. -/
def Sorted.restrict (s : Sorted) (limit : Visibility) : Sorted :=
  let hidden := hiddenTypes limit s.types
  { s with
    types := s.types.filter (·.typeName ∉ hidden)
    members := s.members.filter fun d => d.scope ∉ hidden && d.visibility.rank ≤ limit.rank }

/-! ### Packages of types -/

/-- The first of the names that stands earlier in the list too is a failure. -/
def checkDistinct (earlier : List Text) : List Text → Except Failure Unit
  | [] => .ok ()
  | n :: ns => if n ∈ earlier then .error (.duplicate n) else checkDistinct (n :: earlier) ns

/-- The value under a name that has to be there. -/
def require {α : Type} (t : Table α) (name : Text) : Except Failure α :=
  match t.get? name with
  | some v => .ok v
  | none => .error .noEntry

abbrev Scopes := Table Text

/-- Follow the scopes of a type outward to a package, or to a type whose package is known, and list
the types that are passed. A walk with more steps than there are types runs in a cycle, and the type
that it started from is at fault. -/
def packageFrom (scopes : Scopes) (packages : List Text) (known : Table Text)
    (start current : Text) : Nat → Except Failure (Text × List Text)
  | 0 => .error (.malformed start .cyclicNesting)
  | steps + 1 =>
    match known.get? current with
    | some package => .ok (package, [])
    | none => do
      let scope ← require scopes current
      if scope ∈ packages then return (scope, [current])
      else if scopes.has scope then
        let (package, passed) ← packageFrom scopes packages known start scope steps
        return (package, current :: passed)
      else .error (.malformed current (.typeOutsidePackage scope))

/-- Note down the package of a type, and of the types passed on the way to it. -/
def placeType (scopes : Scopes) (packages : List Text) (known : Table Text) (d : Declaration) :
    Except Failure (Table Text) := do
  let (package, passed) ←
    packageFrom scopes packages known d.typeName d.typeName scopes.entries.length
  return known.putAll (passed.map (·, package))

/-- The package of each type, in the order of the types. -/
def typePackages (packages : List Text) (types : List Declaration) :
    Except Failure (Table Text) := do
  let scopes : Scopes := .ofEntries (types.map fun d => (d.typeName, d.scope))
  let known ← types.foldlM (placeType scopes packages) .empty
  return .ofEntries (types.filterMap fun d => (known.get? d.typeName).map (d.typeName, ·))

end Extraction

end ApiDocs
