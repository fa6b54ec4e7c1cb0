import ApiDocs.Entity.Reference
import ApiDocs.Sorting
import ApiDocs.Table

/-!
# The resolution report

The report records the outcome for every reference of a run, in order. Its summary counts the
outcomes, and the unresolved ones by the type that their text names.
-/

namespace ApiDocs

/-- The outcomes of a run. -/
structure Report where
  /-- Owner, text and target of the resolved references. -/
  resolved : List (Text × Text × Text) := []
  /-- Owner and text of the unresolved references. -/
  unresolved : List (Text × Text) := []
  deriving DecidableEq, Repr

namespace Report

instance : Inhabited Report := ⟨{}⟩

/-- Record the outcome for a reference. -/
def add (r : Report) (owner text : Text) : Resolution → Report
  | .link target => { r with resolved := r.resolved ++ [(owner, text, target)] }
  | .unresolved text => { r with unresolved := r.unresolved ++ [(owner, text)] }

/-- How many references were recorded. -/
def total (r : Report) : Nat := r.resolved.length + r.unresolved.length

/-- What an unresolved text is counted under: its part before a number sign, or the sign alone. -/
def targetKey (text : Text) : Text :=
  let type : Text := text.takeWhile (· != '#')
  if type.isEmpty then "#" else type

/-- How many unresolved references there are for each key, sorted by key. -/
def unresolvedTargets (r : Report) : List (Text × Nat) :=
  let keys := r.unresolved.map fun u => targetKey u.2
  (sortNames keys.eraseDups).map fun k => (k, keys.count k)

end Report

end ApiDocs
