import ApiDocs.Markdown

/-!
# Pages as lines

A page is a list of headings and of other lines; a line may hold line feeds of its own.
-/

namespace ApiDocs.Page

open Text

/-- A line of a page. -/
inductive Line where
  | heading (level : Nat) (text : Text)
  | text (s : Text)
  deriving DecidableEq, Repr

def Line.render : Line → Text
  | heading level s => Markdown.heading level s
  | text s => s

def headings (ls : List Line) : List Text :=
  ls.filterMap fun
    | .heading _ s => some s
    | .text _ => none

def blank : Line := .text []

/-- A text with an empty line after it; an empty text leaves no line. -/
def paragraph (s : Text) : List Line := if s = [] then [] else [.text s, blank]

/-- The text of a page: white space at its end is a single line feed. -/
def render (ls : List Line) : Text := trimRight (joinWith "\n" (ls.map Line.render)) ++ "\n"

end ApiDocs.Page
