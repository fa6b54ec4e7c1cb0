import ApiDocs.Text.Split

/-!
# Paths

A path is a root and the names that lead on from there. A name that is empty or a single dot says
nothing and is left out; a double dot leads back to the directory above.
-/

namespace ApiDocs

open Text

/-- A path through directories. -/
structure Path where
  /-- Nothing for a path that starts from a working directory, a slash, or two slashes. -/
  root : Text := []
  names : List Text := []
  deriving DecidableEq, Repr

namespace Path

/-- The name that leads to the directory above. -/
def up : Text := ".."

/-- The root of a written path. Two slashes are another root than one; three or more are one. -/
def rootOf (t : Text) : Text :=
  let slashes : Text := t.takeWhile (· == '/')
  if slashes.length ≤ 2 then slashes else "/"

def ofText (t : Text) : Path where
  root := rootOf t
  names := (splitWhere (· == '/') t).filter fun name => ! name.isEmpty && name ≠ "."

/-- The text of a path; that of a path that leads nowhere is a single dot. -/
def toText (p : Path) : Text :=
  if p.root.isEmpty && p.names.isEmpty then "." else p.root ++ joinWith "/" p.names

def isAbsolute (p : Path) : Bool := ! p.root.isEmpty

/-- A path from a directory; one that starts from a root stands for itself. -/
def join (dir p : Path) : Path :=
  if p.isAbsolute then p else { dir with names := dir.names ++ p.names }

def parent (p : Path) : Path := { p with names := p.names.dropLast }

/-- Names without double dots; the first argument holds those passed, the last one first. -/
def withoutUp (passed : List Text) : List Text → List Text
  | [] => passed.reverse
  | name :: rest =>
    if name = up then withoutUp (passed.drop 1) rest else withoutUp (name :: passed) rest

/-- The path from the root that a path stands for in a working directory. -/
def resolve (workingDirectory p : Path) : Path :=
  ⟨"/", withoutUp [] (workingDirectory.join p).names⟩

end Path

end ApiDocs
