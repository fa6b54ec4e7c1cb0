import ApiDocs.Declaration.Read
import ApiDocs.Settings.Merge

/-!
# Settings

The settings of a run are a mapping: the defaults with the user's overrides merged in. Only the
output format and the page layout are checked; every other setting is taken as it comes where it is
used.
-/

namespace ApiDocs

/-- The settings of a run. -/
structure Settings where
  entries : List (Value × Value)
  deriving Repr

namespace Settings

open Value

/-- The settings without overrides. -/
def defaults : Settings where
  entries :=
    [ (text "api_root", text "/api"),
      (text "format", text "markdown"),
      (text "layout", text "type"),
      (text "visibility", text "private"),
      (text "inherit_docs", bool true),
      (text "include_package_pages", bool true),
      (text "include_home_page", bool false),
      (text "code_language", text "java"),
      (text "external_packages", list []),
      (text "report", map [(text "path", text "resolution_report.json")]) ]

def formats : List Text := ["markdown", "json"]

def layouts : List Text := ["type", "package"]

def get? (s : Settings) (name : Text) : Option Value := find? (text name) s.entries

/-- The value of a setting; null if there is none. -/
def get (s : Settings) (name : Text) : Value := (s.get? name).getD null

def set (s : Settings) (name : Text) (v : Value) : Settings := ⟨put (text name) v s.entries⟩

/-- Check that a setting is one of the choices. One that is not has to be shown. -/
def checkChoice (s : Settings) (name : Text) (choices : List Text) : Except Failure Unit :=
  if choices.any fun c => (s.get name).sameKey (text c) then .ok ()
  else do
    checkWritable [s.get name]
    throw (.unknownChoice name (s.get name) choices)

/-- Check the output format and the page layout. -/
def check (s : Settings) : Except Failure Settings := do
  s.checkChoice "format" formats
  s.checkChoice "layout" layouts
  return s

/-- The defaults with overrides merged in; overrides that say nothing change nothing. -/
def ofOverrides [Arrangement] (overrides : Value) : Except Failure Settings := do
  let merged ← deepMerge defaults.entries (if overrides.isGiven then overrides else map [])
  check ⟨merged⟩

/-- Set the settings of a mapping, unchecked. -/
def setAll (s : Settings) (es : List (Value × Value)) : Settings :=
  ⟨es.foldl (fun entries e => put e.1 e.2 entries) s.entries⟩

/-! ### The settings that are used -/

/-- The text of a setting that says something. -/
def textOr (s : Settings) (name default : Text) : Text :=
  if (s.get name).isGiven then (s.get name).toText else default

/-- Whether a setting is on; the default counts where there is none. -/
def isOn (s : Settings) (name : Text) (default : Bool) : Bool :=
  ((s.get? name).map isGiven).getD default

def hasText (s : Settings) (name value : Text) : Bool := (s.get name).sameKey (text value)

def apiRoot (s : Settings) : Text := s.textOr "api_root" "/api"

def codeLanguage (s : Settings) : Text := s.textOr "code_language" "java"

/-- Check that the settings that pages show have texts. -/
def checkShown (s : Settings) : Except Failure Unit :=
  checkWritable [s.get "api_root", s.get "code_language"]

def byPackage (s : Settings) : Bool := s.hasText "layout" "package"

def asData (s : Settings) : Bool := s.hasText "format" "json"

def inherits (s : Settings) : Bool := s.isOn "inherit_docs" true

/-- The least visibility of what is documented. An unknown one leaves nothing out. -/
def visibility (s : Settings) : Except Failure Visibility :=
  match s.get? "visibility" with
  | some (text w) => .ok ((Visibility.ofModifier? w).getD .declaring)
  | some v => if v.isScalar then .ok .declaring else .error .wrongSort
  | none => .ok .declaring

/-- Whether a text is the name of a package or lies in it. -/
def liesIn (package s : Text) : Bool :=
  s = package || (package ++ ".").isPrefixOf s

/-- Whether a text lies in one of the packages, which are looked at in order. -/
def liesInAny (s : Text) : List Value → Except Failure Bool
  | [] => .ok false
  | text package :: rest => if liesIn package s then .ok true else liesInAny s rest
  | _ :: _ => .error .wrongSort

def isExternal (s : Settings) (reference : Text) : Except Failure Bool :=
  (s.get "external_packages").givenItems >>= liesInAny reference

end Settings

end ApiDocs
