import ApiDocs.Page.TypePage

/-!
# Pages of packages

A landing page lists the types of a package by flavor. Where there is one page for each package, it
holds the sections of all its types instead.
-/

namespace ApiDocs.Page

open Text

def packageHead (s : Source) (package : Text) : List Line :=
  [.heading 1 ("Package " ++ package), blank] ++ textLines s.linking (s.view.doc package)

/-- The flavors of types with their titles, in the order of a landing page. -/
def flavorTitles : List (Text × Text) :=
  [("interface", "Interfaces"), ("class", "Classes"), ("enum", "Enums"), ("record", "Records"),
    ("annotation", "Annotation Types")]

def typeEntry (s : Source) (t : TypeEntity) : List Line :=
  let shown := match s.linking.targets.get? t.qualifiedName with
    | some target => Markdown.link t.title target.path
    | none => t.title
  let d := s.view.doc t.qualifiedName
  let summary := s.linking.showText d.summary (splitLinks d.summary d.links).1
  let oneLine := summary.map fun c => if c = .char '\n' then .char ' ' else c
  .heading 3 shown :: (if summary = [] then [] else [.text oneLine]) ++ [blank]

def flavorLines (s : Source) (types : List TypeEntity) (flavor : Text × Text) : List Line :=
  let matching := types.filter (·.info.flavor = flavor.1)
  if matching.isEmpty then []
  else [.heading 2 flavor.2, blank] ++ matching.flatMap (typeEntry s)

def typesOf (s : Source) (package : Text) : List TypeEntity :=
  (s.view.typesOf package).filterMap s.model.findType?

def landingPage (s : Source) (package : Text) : List Line :=
  packageHead s package ++ flavorTitles.flatMap (flavorLines s (typesOf s package))

def packagePage (s : Source) (package : Text) : Except Failure (List Line) := do
  let sections ← (typesOf s package).mapM (typeSection s 2)
  return frontMatter s.linking package ++ packageHead s package ++ sections.flatten

/-- The home page, which lists every package. -/
def homePage (l : Linking) (v : View) : Text :=
  let entries := v.packages.map fun p =>
    match l.targets.get? p with
    | some t => "- " ++ Markdown.link p t.path
    | none => "- " ++ p
  joinWith "\n" ("# API Reference" :: [] :: entries) ++ "\n"

end ApiDocs.Page
