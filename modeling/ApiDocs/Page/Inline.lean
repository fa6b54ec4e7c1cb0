import ApiDocs.Page.Target

/-!
# Inline tags on pages

A reference that links to an entity with a target is shown as a link, and any other one as code. In
a text, inline links are shown by the references that go with them, in order; then code tags become
code, inheritance markers vanish, and of every other inline tag the content is left.
-/

namespace ApiDocs

open Text

/-- What references are shown with: their resolutions and the targets of entities. -/
structure Linking where
  resolutions : Resolutions
  targets : Targets

namespace Linking

def showReference (l : Linking) (r : Reference) : Text :=
  match (l.resolutions.target? r).bind l.targets.get? with
  | some t => Markdown.link (if r.label ≠ [] then r.label else t.title) t.path
  | none => Markdown.code r.display

/-- A link to the target of a name, or else a text. -/
def linkOr (l : Linking) (name fallback : Text) : Text :=
  match l.targets.get? name with
  | some t => Markdown.link t.title t.path
  | none => fallback

/-- Show inline links by the references that go with them, or as code when there is none left. -/
def showLinks (l : Linking) : List (Comment.Piece Comment.InlineLink) → List Reference → Text
  | [], _ => []
  | .point c :: ps, rs => c :: l.showLinks ps rs
  | .hit link _ :: ps, [] => Markdown.code link.target ++ l.showLinks ps []
  | .hit _ _ :: ps, r :: rs => l.showReference r ++ l.showLinks ps rs

end Linking

def Comment.InlineTag.shown (t : Comment.InlineTag) : Text :=
  if t.name = "code" then Markdown.code t.content
  else if t.name = "inheritDoc" then []
  else t.content

/-- A text with its inline tags as they are shown. -/
def Linking.showText (l : Linking) (s : Text) (rs : List Reference) : Text :=
  let linked := l.showLinks (Comment.scan Comment.inlineLink s) rs
  trim (Comment.replaceMatches Comment.inlineTag (·.shown) linked)

end ApiDocs
