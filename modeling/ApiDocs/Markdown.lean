import ApiDocs.Text.Case
import ApiDocs.Text.Split

/-!
# Markdown building blocks

Path segments, anchors, code blocks, tables and headings.
-/

namespace ApiDocs.Markdown

open Text

/-- Replace every maximal run of code points that satisfy `p` by `mark`. The flag says whether the
code point before belongs to a run. -/
def collapseRuns (p : CodePoint → Bool) (mark : CodePoint) : Bool → Text → Text
  | _, [] => []
  | inRun, c :: cs =>
    if p c then (if inRun then [] else [mark]) ++ collapseRuns p mark true cs
    else c :: collapseRuns p mark false cs

/-- Drop the dashes at both ends. -/
def trimDashes (cs : Text) : Text := dropRightWhile (· == '-') (cs.dropWhile (· == '-'))

/-- Whether a code point may stand in a path segment. -/
def isSegmentChar (c : CodePoint) : Bool := c.is Char.isAlphanum || c = '_' || c = '-'

/-- A path segment for a segment of a name: dollar signs and runs of other code points that may not
stand in one become dashes, and there are none at the ends. -/
def pathSegment (cs : Text) : Text :=
  let dashed := cs.map fun c => if c = .char '$' then .char '-' else c
  let segment := trimDashes (collapseRuns (! isSegmentChar ·) '-' false dashed)
  if segment.isEmpty then "Unknown" else segment

/-- Whether a code point may stand in an anchor next to any other. -/
def isAnchorChar (c : CodePoint) : Bool := c.is Char.isLower || c.is Char.isDigit

/-- The anchor of a heading: its letters and digits in lower case, with a dash for each run of other
code points between them. -/
def slug (cs : Text) : Text :=
  let anchor := trimDashes (collapseRuns (! isAnchorChar ·) '-' false (lower (trim cs)))
  if anchor.isEmpty then "section" else anchor

def codeBlock (language code : Text) : Text :=
  "```" ++ language ++ "\n" ++ trimRight code ++ "\n```"

def code (s : Text) : Text := "`" ++ s ++ "`"

def link (label target : Text) : Text := "[" ++ label ++ "](" ++ target ++ ")"

/-- A table cell: bars are escaped, and white space becomes single spaces. -/
def cell (cs : Text) : Text :=
  joinWith " " (words (cs.flatMap fun (c : CodePoint) => if c = '|' then "\\|" else [c]))

/-- A table row with cells as they stand. -/
def row (cells : List Text) : Text := "| " ++ joinWith " | " cells ++ " |"

/-- A table; without rows there is none. -/
def table (headers : List Text) (rows : List (List Text)) : Text :=
  if rows.isEmpty then []
  else joinWith "\n"
    (row headers :: row (headers.map fun _ => "---") ::
      rows.map fun cells => row (cells.map cell))

/-- A heading; Markdown has six levels. -/
def heading (level : Int) (s : Text) : Text :=
  Text.replicate (max 1 (min level 6)).toNat '#' ++ " " ++ s

end ApiDocs.Markdown
