import ApiDocs.Table

/-!
# Ancestors of types

The ancestors of a type are listed nearest first, breadth first over the declared supertypes: at
every type the superclass comes before the interfaces, in the order of declaration. Names outside
the table end their branch, each ancestor is listed once, and cycles add nothing.
-/

namespace ApiDocs

abbrev Supertypes := Table (List Text)

namespace Supertypes

/-- The declared supertypes of a name; none outside the table. -/
def parents (types : Supertypes) (name : Text) : List Text := (types.get? name).getD []

/-- Take names from a queue; one that is a type and is new is listed, and its supertypes are put at
the end of the queue. The last argument bounds the number of names taken. -/
def visit (types : Supertypes) (start : Text) (found queue : List Text) : Nat → List Text
  | 0 => found
  | steps + 1 =>
    match queue with
    | [] => found
    | name :: rest =>
      if name = start || name ∈ found || ! types.has name then visit types start found rest steps
      else visit types start (found ++ [name]) (rest ++ types.parents name) steps

/-- How many supertypes are declared in all: no walk queues more names than that. -/
def edgeCount (types : Supertypes) : Nat := types.entries.foldr (fun e n => e.2.length + n) 0

/-- The ancestors of a type, nearest first. -/
def ancestorsOf (types : Supertypes) (name : Text) : List Text :=
  visit types name [] (types.parents name) types.edgeCount

def ancestors (types : Supertypes) : Table (List Text) :=
  ⟨types.keys.map fun name => (name, types.ancestorsOf name)⟩

end Supertypes

end ApiDocs
