import ApiDocs.Page.Inline
import ApiDocs.Page.Line

/-!
# Pages of types

A type is shown with its package, text, signature and supertypes, then with its members in groups.
The same section stands on a page of its own or on the page of the package, at another level.
-/

namespace ApiDocs.Page

open Text

/-- What pages are made from. -/
structure Source where
  model : Model
  view : View
  linking : Linking
  /-- The language of code blocks. -/
  language : Text

/-- Lines with an empty line after them; no lines leave none. -/
def closed (ls : List Line) : List Line := if ls.isEmpty then [] else ls ++ [blank]

/-! ### Documentation -/

def textLines (l : Linking) (d : MergedDoc) : List Line :=
  let (summaryLinks, bodyLinks) := splitLinks d.summary d.links
  paragraph (l.showText d.summary summaryLinks) ++ paragraph (l.showText d.body bodyLinks)

def tagText (l : Linking) (t : Tag) : Text := l.showText t.text t.links

/-- The note that an entity is deprecated. -/
def deprecationLines (l : Linking) (d : MergedDoc) : List Line :=
  match tagsOf "deprecated" d.tags with
  | [] => []
  | t :: _ => [.text (trimRight ("> **Deprecated.** " ++ tagText l t)), blank]

/-- The labels of the tags that are shown on a line of their own. -/
def tagLabels : List (Text × Text) :=
  [("since", "Since"), ("version", "Version"), ("author", "Author")]

/-- The tags that are shown on a line of their own. -/
def labelledLines (l : Linking) (d : MergedDoc) : List Line :=
  closed (tagLabels.flatMap fun kind =>
    (tagsOf kind.1 d.tags).map fun t => .text ("**" ++ kind.2 ++ ":** " ++ tagText l t))

def seeAlsoLines (l : Linking) (level : Nat) (d : MergedDoc) : List Line :=
  match tagsOf "see" d.tags with
  | [] => []
  | tags =>
    .heading level "See also" ::
      tags.map (fun t => .text ("- " ++
        match t.reference with
        | some r => l.showReference r
        | none => tagText l t)) ++ [blank]

/-! ### Supertypes -/

/-- The superclass, its superclass, and so on, up to a name that was met before. The last argument
bounds the number of types on the way. -/
def superclassPath (m : Model) (met : List Text) (current : Option Text) : Nat → List Text
  | 0 => []
  | steps + 1 =>
    match current with
    | none => []
    | some name =>
      if name = [] || name ∈ met then []
      else name ::
        superclassPath m (name :: met) ((m.findType? name).bind (·.info.supertype)) steps

/-- The superclasses of a type, nearest first. A path without repeats names at most every type and
one name more. -/
def superclasses (m : Model) (t : TypeEntity) : List Text :=
  superclassPath m [t.qualifiedName] t.info.supertype (m.entities.length + 1)

/-- The section of the superclasses, the root first. -/
def inheritanceLines (s : Source) (level : Nat) (t : TypeEntity) : List Line :=
  match superclasses s.model t with
  | [] => []
  | path =>
    let shown := path.map fun name => s.linking.linkOr name (Markdown.code name)
    [.heading level "Inheritance", .text (joinWith " → " (shown.reverse ++ [t.title])), blank]

def interfaceLines (s : Source) (level : Nat) (t : TypeEntity) : List Line :=
  if t.info.interfaces.isEmpty then []
  else
    let shown := t.info.interfaces.map fun name => s.linking.linkOr name (Markdown.code name)
    [.heading level (if t.info.flavor = "interface" then "Extends" else "Implements"),
      .text (joinWith ", " shown), blank]

/-! ### Members -/

/-- Parameter names with the types that go with them; they have to be equally many. -/
def parameterPairs (e : Entity) : Except Failure (List (Text × Text)) :=
  if e.parameterNames.length = e.parameterTypes.length then
    .ok (e.parameterNames.zip e.parameterTypes)
  else .error .unpairedParameters

def parameterRow (l : Linking) (d : MergedDoc) (p : Text × Text) : List Text :=
  [ if p.1 = [] then [] else Markdown.code p.1,
    Markdown.code p.2,
    ((d.paramTag? p.1).map (tagText l)).getD [] ]

def parameterLines (l : Linking) (level : Nat) (e : Entity) (d : MergedDoc) :
    Except Failure (List Line) := do
  if e.isField || e.parameterTypes.isEmpty then return []
  let pairs ← parameterPairs e
  return [.heading level "Parameters", blank,
    .text (Markdown.table ["Name", "Type", "Description"] (pairs.map (parameterRow l d))), blank]

/-- The section of the result of a method or of the value of a field. -/
def resultLines (l : Linking) (level : Nat) (e : Entity) (d : MergedDoc) : List Line :=
  if e.isConstructor then []
  else
    let type := if e.returnType = "void" then [] else e.returnType
    let description := ((tagsOf "return" d.tags).head?.map (tagText l)).getD []
    if type = [] && description = [] then []
    else
      [.heading level (if e.isField then "Field Value" else "Returns"), blank] ++
        paragraph (if type = [] then [] else "**Type:** " ++ Markdown.code type) ++
        paragraph description

def throwsLines (l : Linking) (level : Nat) (d : MergedDoc) : List Line :=
  match tagsOf "throws" d.tags with
  | [] => []
  | tags =>
    [.heading level "Throws", blank] ++
      tags.map (fun t =>
        let type := match t.reference with
          | some r => l.showReference r
          | none => Markdown.code t.name
        let text := tagText l t
        .text (if text = [] then "- " ++ type else "- " ++ type ++ " — " ++ text)) ++ [blank]

/-- The note where an inherited text comes from. -/
def sourceLines (l : Linking) (d : MergedDoc) : List Line :=
  match d.inheritedFrom.filter (· ≠ []) with
  | none => []
  | some name => [.text ("*Description copied from " ++ l.linkOr name name ++ ".*"), blank]

def signatureLines (language signature : Text) : List Line :=
  if signature = [] then [] else [.text (Markdown.codeBlock language signature), blank]

def memberLines (s : Source) (level : Nat) (e : Entity) : Except Failure (List Line) := do
  let l := s.linking
  let d := s.view.doc e.qualifiedName
  let parameters ← parameterLines l (level + 1) e d
  return [.heading level e.heading, blank] ++ signatureLines s.language e.signature ++
    deprecationLines l d ++ textLines l d ++ sourceLines l d ++ parameters ++
    resultLines l (level + 1) e d ++ throwsLines l (level + 1) d ++ labelledLines l d ++
    seeAlsoLines l (level + 1) d

/-- The groups of members with their titles, in the order of emission. -/
def memberGroups : List (MemberKind × Text) :=
  [(.constructor, "Constructors"), (.field, "Fields"), (.method, "Methods")]

def groupLines (s : Source) (level : Nat) (members : List Entity) (group : MemberKind × Text) :
    Except Failure (List Line) := do
  let inGroup := members.filter (·.category = .member group.1)
  if inGroup.isEmpty then return []
  let sections ← inGroup.mapM (memberLines s (level + 1))
  return [.heading level group.2, blank] ++ sections.flatten

/-! ### Types -/

def typeSection (s : Source) (level : Nat) (t : TypeEntity) : Except Failure (List Line) := do
  let l := s.linking
  let d := s.view.doc t.qualifiedName
  let members := (s.view.membersOf t.qualifiedName).filterMap s.model.find?
  let groups ← memberGroups.mapM (groupLines s (level + 1) members)
  let package := match l.targets.get? t.info.package with
    | some target => Markdown.link t.info.package target.path
    | none => Markdown.code t.info.package
  return [.heading level t.heading, blank, .text ("**Package:** " ++ package), blank] ++
    deprecationLines l d ++ textLines l d ++ signatureLines s.language t.entity.signature ++
    inheritanceLines s (level + 1) t ++ interfaceLines s (level + 1) t ++ labelledLines l d ++
    groups.flatten ++ seeAlsoLines l (level + 1) d

/-- The lines in front of a page that say what it is about and where it stands. -/
def frontMatter (l : Linking) (name : Text) : List Line :=
  [.text "---", .text ("qualified_name: " ++ name)] ++
    ((l.targets.get? name).toList.map fun t => .text ("canonical_path: " ++ t.path)) ++
    [.text "---", blank]

def typePage (s : Source) (t : TypeEntity) : Except Failure (List Line) := do
  return frontMatter s.linking t.qualifiedName ++ (← typeSection s 1 t)

end ApiDocs.Page
