import ApiDocs.Json
import ApiDocs.Page.TypePage

/-!
# The data document

Instead of pages, the whole view can be written as one tree: packages with their types, and types
with their members, in the order of emission.
-/

namespace ApiDocs.Page

def optionalText : Option Text → Json
  | some s => .text s
  | none => .null

/-- A reference with its target and the path of that target. -/
def referenceTree (l : Linking) (r : Reference) : Json :=
  let target : Fields := match l.resolutions.target? r with
    | some target =>
      [("target", .text target), ("href", optionalText ((l.targets.get? target).map (·.path)))]
    | none => [("target", .null)]
  .object (("text", .text r.text) :: ("label", .text r.label) :: target)

/-- A tag; its target and its links stand there only if it has any. -/
def tagTree (l : Linking) (t : Tag) : Json :=
  let reference : Fields := t.reference.toList.map fun r => ("reference", referenceTree l r)
  let links : Fields :=
    if t.links.isEmpty then [] else [("links", .list (t.links.map (referenceTree l)))]
  .object (("kind", .text t.kind) :: ("name", .text t.name) :: ("text", .text t.text) ::
    (reference ++ links))

def textField (name value : Text) : Fields :=
  if value = [] then [] else [(name, .text value)]

def parameterFields (e : Entity) : Except Failure Fields := do
  if e.parameterTypes.isEmpty then return []
  let pairs ← parameterPairs e
  return [("parameters",
    .list (pairs.map fun p => .object [("name", .text p.1), ("type", .text p.2)]))]

def typeFields (e : Entity) : Fields :=
  match e.typeInfo? with
  | none => []
  | some t =>
    [("flavor", .text t.flavor), ("supertype", optionalText t.supertype),
      ("interfaces", .list (t.interfaces.map .text))]

def entityFields (s : Source) (e : Entity) : Except Failure Fields := do
  let l := s.linking
  let d := s.view.doc e.qualifiedName
  let parameters ← parameterFields e
  let always : Fields := [
    ("qualified_name", .text e.qualifiedName),
    ("kind", .text e.kind.name),
    ("name", .text e.name),
    ("href", optionalText ((l.targets.get? e.qualifiedName).map (·.path))),
    ("summary", .text d.summary),
    ("body", .text d.body),
    ("links", .list (d.links.map (referenceTree l))),
    ("tags", .list (d.tags.map (tagTree l))),
    ("deprecated", .bool e.deprecated)]
  return always ++ textField "inherited_from" (d.inheritedFrom.getD []) ++
    textField "signature" e.signature ++ parameters ++ textField "type" e.returnType ++ typeFields e

def memberTree (s : Source) (e : Entity) : Except Failure Json := do
  return .object (← entityFields s e)

def typeTree (s : Source) (e : Entity) : Except Failure Json := do
  let fields ← entityFields s e
  let members ← ((s.view.membersOf e.qualifiedName).filterMap s.model.find?).mapM (memberTree s)
  return .object (fields.concat ("members", .list members))

def packageTree (s : Source) (e : Entity) : Except Failure Json := do
  let fields ← entityFields s e
  let types ← ((s.view.typesOf e.qualifiedName).filterMap s.model.find?).mapM (typeTree s)
  return .object (fields.concat ("types", .list types))

def tree (s : Source) : Except Failure Json := do
  let packages ← (s.view.packages.filterMap s.model.find?).mapM (packageTree s)
  return .object [("schema_version", .int 1), ("packages", .list packages)]

def dataDocument (s : Source) : Except Failure Text := do
  return (← tree s).render false ++ "\n"

end ApiDocs.Page
