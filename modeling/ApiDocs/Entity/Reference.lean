import ApiDocs.Comment.Mention

/-!
# References

A reference is a mention at the site where it was written. What references resolve to is kept apart,
by site, so that everything that shows a reference shows its present resolution.
-/

namespace ApiDocs

/-- Where in the documentation of an entity a reference stands. -/
inductive Place where
  /-- The `i`-th inline link of the summary and the body. -/
  | text (i : Nat)
  /-- The target of a tag. -/
  | tagTarget (tag : Nat)
  /-- The `i`-th inline link of the text of a tag. -/
  | tagText (tag i : Nat)
  deriving DecidableEq, Repr

/-- Where a reference was written: in which extraction, by which entity, and in which place. -/
structure Site where
  extraction : Nat
  owner : Text
  place : Place
  deriving DecidableEq, Repr

/-- A reference to an entity. -/
structure Reference where
  site : Site
  text : Text
  label : Text := []
  deriving DecidableEq, Repr

/-- What a reference resolves to. -/
inductive Resolution where
  /-- The qualified name of an entity. -/
  | link (target : Text)
  /-- Nothing; the text stands for itself. -/
  | unresolved (text : Text)
  deriving DecidableEq, Repr

def Comment.Mention.at (m : Mention) (site : Site) : Reference := ⟨site, m.text, m.label⟩

/-- The text shown for a reference that links nowhere: its label, or else its text without number
signs in front. -/
def Reference.display (r : Reference) : Text :=
  if r.label ≠ [] then r.label else r.text.dropWhile (· == '#')

/-- What the references resolved so far resolve to. -/
structure Resolutions where
  entries : List (Site × Resolution) := []
  deriving Repr

namespace Resolutions

def get? (rs : Resolutions) (r : Reference) : Option Resolution := rs.entries.lookup r.site

def set (rs : Resolutions) (r : Reference) (outcome : Resolution) : Resolutions :=
  ⟨(r.site, outcome) :: rs.entries⟩

def target? (rs : Resolutions) (r : Reference) : Option Text :=
  match rs.get? r with
  | some (.link target) => some target
  | _ => none

end Resolutions

end ApiDocs
