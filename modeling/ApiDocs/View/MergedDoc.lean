import ApiDocs.Model
import ApiDocs.Name.Parameters

/-!
# Inherited documentation

A field or method without a text of its own takes the text of the nearest member that it overrides
and that has one. A text with the marker `{@inheritDoc}` takes that member's text in place of each
marker, and a method also takes the tags that it lacks. The overridden members are merged first, so
a text passes down through any number of levels. Docs merged so far are kept in a table; a member
that is met again while it is being merged counts with its own documentation.

How deep calls may be nested is no matter here. A program that goes from member to overridden member
by calling itself runs out of its stack where some hundreds of types extend one another and the last
of them is merged first; that limit is left out, as it is one of what the program runs on.
-/

namespace ApiDocs

open Text

/-- Documentation to show for an entity, and the member that its text was taken from. -/
structure MergedDoc where
  summary : Text := []
  body : Text := []
  links : List Reference := []
  tags : List Tag := []
  inheritedFrom : Option Text := none
  deriving DecidableEq, Repr

instance : Inhabited MergedDoc := ⟨{}⟩

namespace MergedDoc

/-- The documentation of an entity as it is. -/
def own (e : Entity) : MergedDoc :=
  { summary := e.summary, body := e.body, links := e.links, tags := e.tags }

def hasText (d : MergedDoc) : Bool := d.summary ≠ [] || d.body ≠ []

def paramTag? (d : MergedDoc) (name : Text) : Option Tag :=
  (tagsOf "param" d.tags).find? (·.name = name)

end MergedDoc

/-! ### Texts with markers -/

def inheritMarker : Text := "\x7b@inheritDoc\x7d"

def hasMarker (s : Text) : Bool := hasWord inheritMarker s

/-- The links of a summary, and the links after them. -/
def splitLinks (summary : Text) (links : List Reference) : List Reference × List Reference :=
  links.splitAt (Comment.linkCount summary)

/-- The links of the segments between markers, with the donor's links at each marker. -/
def spliceLinks (donor : List Reference) (links : List Reference) :
    List Text → List Reference
  | [] => []
  | [segment] => links.take (Comment.inlineLinks segment).length
  | segment :: segments =>
    let n := (Comment.inlineLinks segment).length
    links.take n ++ donor ++ spliceLinks donor (links.drop n) segments

/-- Put a donor's text and links in place of each marker. -/
def substituteMarkers (s : Text) (links : List Reference) (donorText : Text)
    (donorLinks : List Reference) : Text × List Reference :=
  let segments := splitOnWord inheritMarker s
  (trim (joinWith donorText segments), spliceLinks donorLinks links segments)

/-! ### Merging with the overridden members -/

abbrev Overridden := Entity × MergedDoc

/-- The first overridden member that has a text. -/
def donor? (overridden : List Overridden) : Option Overridden := overridden.find? (·.2.hasText)

/-- The text, links and donor of a member after merging. -/
def mergeText (e : Entity) (overridden : List Overridden) : MergedDoc :=
  let own := MergedDoc.own e
  let donor := donor? overridden
  match e.documented, donor with
  | false, some (source, doc) =>
    { own with
      summary := doc.summary, body := doc.body, links := doc.links
      inheritedFrom := some source.qualifiedName }
  | _, _ =>
    if hasMarker e.summary || hasMarker e.body then
      let doc := (donor.map (·.2)).getD {}
      let ownLinks := splitLinks e.summary e.links
      let donorLinks := splitLinks doc.summary doc.links
      let summary := substituteMarkers e.summary ownLinks.1 doc.summary donorLinks.1
      let body := substituteMarkers e.body ownLinks.2 doc.body donorLinks.2
      { own with
        summary := summary.1, body := body.1, links := summary.2 ++ body.2
        inheritedFrom := donor.map (·.1.qualifiedName) }
    else own

/-- The tag that documents the `i`-th parameter of an overridden member. -/
def inheritedParam? (i : Nat) (o : Overridden) : Option Tag :=
  o.1.parameterNames[i]?.bind o.2.paramTag?

/-- The tags for parameters that a method names and does not document. -/
def inheritedParams (e : Entity) (overridden : List Overridden) : List Tag :=
  let documented := (tagsOf "param" e.tags).map (·.name)
  (e.parameterNames.zipIdx.filterMap fun p =>
    if p.1 = [] || p.1 ∈ documented then none
    else (overridden.findSome? (inheritedParam? p.2)).map fun t =>
      { t with kind := "param", name := p.1 })

/-- The first tag for the result, if a method that has a result does not document it. -/
def inheritedReturn (e : Entity) (overridden : List Overridden) : List Tag :=
  if (tagsOf "return" e.tags).isEmpty && e.returnType ≠ "void" then
    (overridden.flatMap fun o => tagsOf "return" o.2.tags).take 1
  else []

/-- The tags for exceptions of the first overridden member that has any, if a method has none. -/
def inheritedThrows (e : Entity) (overridden : List Overridden) : List Tag :=
  if (tagsOf "throws" e.tags).isEmpty then
    (overridden.findSome? fun o =>
      let tags := tagsOf "throws" o.2.tags
      if tags.isEmpty then none else some tags).getD []
  else []

/-- The tags that a method takes from the members it overrides. -/
def inheritedTags (e : Entity) (overridden : List Overridden) : List Tag :=
  inheritedParams e overridden ++ inheritedReturn e overridden ++ inheritedThrows e overridden

/-- The documentation of an entity merged with that of the members it overrides, nearest first. -/
def mergeDoc (e : Entity) (overridden : List Overridden) : MergedDoc :=
  if overridden.isEmpty then .own e
  else
    let doc := mergeText e overridden
    if e.isMethod then { doc with tags := doc.tags ++ inheritedTags e overridden } else doc

/-! ### Overridden members -/

namespace Model

variable (m : Model)

/-- Whether a member has the signature of another: the kind, the name and, fields aside, a matching
parameter list. -/
def sameSignature (e other : Entity) : Bool :=
  other.kind = e.kind && other.name = e.name &&
    (e.isField || Name.parametersMatch other.parameterTypes e.parameterTypes)

/-- The members of ancestors that a field or method overrides, nearest ancestor first. -/
def overridden (e : Entity) : List Entity :=
  if e.isField || e.isMethod then
    match m.findType? e.scope with
    | some t =>
      (m.ancestorsOf t.qualifiedName).filterMap fun ancestor =>
        (m.membersOf ancestor).find? (sameSignature e)
    | none => []
  else []

/-! ### The merged documentation -/

/-- Apply a step to the elements of a list, passing a table of docs along. -/
def throughTable {α β : Type} (step : α → Table MergedDoc → β × Table MergedDoc) :
    List α → Table MergedDoc → List β × Table MergedDoc
  | [], docs => ([], docs)
  | a :: as, docs =>
    let (b, docs) := step a docs
    let (bs, docs) := throughTable step as docs
    (b :: bs, docs)

/-- The merged documentation of an entity, with the docs merged so far. The last argument bounds how
many members may be in the course of being merged. -/
def mergeFrom : Nat → Entity → Table MergedDoc → MergedDoc × Table MergedDoc
  | 0, e, docs => (.own e, docs)
  | depth + 1, e, docs =>
    match docs.get? e.qualifiedName with
    | some doc => (doc, docs)
    | none =>
      let (above, docs) := throughTable
        (fun o docs => let (doc, docs) := mergeFrom depth o docs; ((o, doc), docs))
        (m.overridden e) (docs.put e.qualifiedName (.own e))
      let doc := mergeDoc e above
      (doc, docs.put e.qualifiedName doc)

/-- A bound on how many members may be in the course of being merged: each is in the table. -/
def mergeDepth : Nat := m.entities.length + 1

def mergedDoc (e : Entity) : MergedDoc := (m.mergeFrom m.mergeDepth e .empty).1

/-- The merged documentation of every entity, in entity order, with one table for all. -/
def mergedDocs : List (Text × MergedDoc) :=
  (throughTable
    (fun e docs =>
      let (doc, docs) := m.mergeFrom m.mergeDepth e docs
      ((e.qualifiedName, doc), docs))
    m.entities .empty).1

end Model

end ApiDocs
