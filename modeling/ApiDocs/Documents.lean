import ApiDocs.Page.DataDocument
import ApiDocs.Page.PackagePage

/-!
# Documents

The documents of a run, by file, in the order of emission: one data document, or the pages of
packages and types and the home page. A page that is written twice keeps its place and takes the
later text.
-/

namespace ApiDocs

open Page

abbrev Documents := Table Text

namespace Documents

def fileOf (l : Linking) (name : Text) : Text :=
  outputFile (((l.targets.get? name).map (·.path)).getD [])

def addType (s : Source) (docs : Documents) (t : TypeEntity) : Except Failure Documents := do
  let page ← typePage s t
  return docs.put (fileOf s.linking t.qualifiedName) (render page)

def addPackage (s : Source) (settings : Settings) (docs : Documents) (package : Text) :
    Except Failure Documents := do
  let file := fileOf s.linking package
  if settings.byPackage then
    return docs.put file (render (← packagePage s package))
  else
    let docs :=
      if settings.isOn "include_package_pages" true then
        docs.put file (render (landingPage s package))
      else docs
    (typesOf s package).foldlM (addType s) docs

def dataFile : Text := "api.json"

def homeFile : Text := "home.md"

def ofSource (s : Source) (settings : Settings) : Except Failure Documents := do
  if settings.asData then
    return Table.empty.put dataFile (← dataDocument s)
  let docs ← s.view.packages.foldlM (addPackage s settings) .empty
  if settings.isOn "include_home_page" false then
    return docs.put homeFile (homePage s.linking s.view)
  return docs

end Documents

def Model.documents (m : Model) (v : View) (settings : Settings) (resolutions : Resolutions) :
    Except Failure Documents := do
  settings.checkShown
  Documents.ofSource
    { model := m, view := v
      linking := { resolutions, targets := m.targets v settings }
      language := settings.codeLanguage }
    settings

end ApiDocs
