import ApiDocs.Markdown
import ApiDocs.Name.Qualified
import ApiDocs.Settings
import ApiDocs.View

/-!
# Link targets

Every entity has a title and a page path, with an anchor if the entity is a part of a page. Anchors
are the slugs of headings; the `n`-th repetition of a slug on a page gets `-n` at its end.
-/

namespace ApiDocs

open Text

/-- Where an entity is shown. -/
structure Target where
  title : Text
  path : Text
  deriving DecidableEq, Repr

/-- The targets of entities by qualified name, in the order of emission. -/
abbrev Targets := Table Target

/-! ### Pages -/

/-- The page of a package or type: a path segment for each dotted segment of its name. -/
def pagePath (apiRoot name : Text) : Text :=
  let segments := (splitWhere (· == '.') name).map Markdown.pathSegment
  dropRightWhile (· == '/') apiRoot ++ "/" ++ joinWith "/" segments

def outputFile (path : Text) : Text :=
  let file : Text := path.takeWhile (· != '#')
  file.dropWhile (· == .char '/') ++ ".md"

/-! ### Titles and headings -/

/-- The name of a type relative to its package. -/
def TypeEntity.title (t : TypeEntity) : Text :=
  if t.info.package = [] then t.entity.name
  else match (t.info.package ++ ".").isPrefixOf? t.qualifiedName with
    | some rest => rest
    | none => t.entity.name

def TypeEntity.heading (t : TypeEntity) : Text := capitalize t.info.flavor ++ " " ++ t.title

/-- The heading of a member: constructors and methods show the simple names of their parameter
types. -/
def Entity.heading (e : Entity) : Text :=
  if e.isField then e.name
  else e.name ++ "(" ++ joinWith ", " (e.parameterTypes.map Name.simple) ++ ")"

/-! ### Anchors -/

/-- How often each slug was used, by page. -/
abbrev Anchors := Table (Table Nat)

/-- An anchor from a slug and the number of its earlier uses. -/
def numberedSlug (slug : Text) (n : Nat) : Text :=
  if n = 0 then slug else slug ++ "-" ++ natural n

/-- The anchor of the next heading on a page. -/
def Anchors.next (used : Anchors) (page heading : Text) : Text × Anchors :=
  let slug := Markdown.slug heading
  let onPage := (used.get? page).getD .empty
  let n := (onPage.get? slug).getD 0
  (numberedSlug slug n, used.put page (onPage.put slug (n + 1)))

/-! ### Targets -/

/-- The anchors used and the targets found so far. -/
structure Targeting where
  used : Anchors := .empty
  targets : Targets := .empty

namespace Targeting

/-- Add a target. -/
def put (s : Targeting) (name title path : Text) : Targeting :=
  { s with targets := s.targets.put name ⟨title, path⟩ }

def addMember (m : Model) (page : Text) (t : TypeEntity) (s : Targeting) (name : Text) :
    Targeting :=
  match m.find? name with
  | none => s
  | some e =>
    let (anchor, used) := s.used.next page e.heading
    { s with used }.put name (t.title ++ "." ++ e.heading) (page ++ "#" ++ anchor)

def addType (m : Model) (v : View) (settings : Settings) (packagePage : Text) (s : Targeting)
    (name : Text) : Targeting :=
  match m.findType? name with
  | none => s
  | some t =>
    let page := if settings.byPackage then packagePage else pagePath settings.apiRoot name
    let (anchor, used) := s.used.next page t.heading
    let path := if settings.byPackage then page ++ "#" ++ anchor else page
    (v.membersOf name).foldl (addMember m page t) ({ s with used }.put name t.title path)

def addPackage (m : Model) (v : View) (settings : Settings) (s : Targeting) (name : Text) :
    Targeting :=
  let page := pagePath settings.apiRoot name
  (v.typesOf name).foldl (addType m v settings page) (s.put name name page)

end Targeting

def Model.targets (m : Model) (v : View) (settings : Settings) : Targets :=
  (v.packages.foldl (Targeting.addPackage m v settings) {}).targets

end ApiDocs
