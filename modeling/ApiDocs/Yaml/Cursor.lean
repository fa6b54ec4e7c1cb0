import ApiDocs.Text

/-!
# Positions in a document

A cursor is the rest of a document with the position where it begins. Lines end at line feeds, next
lines, and the line and paragraph separators.
-/

namespace ApiDocs.Yaml

def isBreak (c : CodePoint) : Bool := c = '\n' || c = '\u0085' || c = '\u2028' || c = '\u2029'

def isSpace (c : CodePoint) : Bool := c = ' ' || c = '\t'

/-- A line end as it counts in a text: a next line is a line feed. -/
def countedBreak (c : CodePoint) : CodePoint := if c = '\u0085' then '\n' else c

/-- Whether an indicator ends before what follows: white space or nothing. -/
def endsBefore : Text → Bool
  | [] => true
  | c :: _ => isSpace c || isBreak c

/-- The rest of a document and the position where it begins. -/
structure Cursor where
  rest : Text
  index : Nat := 0
  line : Nat := 0
  column : Nat := 0

namespace Cursor

def peek? (c : Cursor) : Option CodePoint := c.rest.head?

/-- Go on by one code point. A byte order mark takes no column. -/
def next (c : Cursor) : Cursor :=
  match c.rest with
  | [] => c
  | p :: rest =>
    if isBreak p then ⟨rest, c.index + 1, c.line + 1, 0⟩
    else ⟨rest, c.index + 1, c.line, if p = '\ufeff' then c.column else c.column + 1⟩

/-- Go on by some code points. -/
def advance (c : Cursor) : Nat → Cursor
  | 0 => c
  | n + 1 => c.next.advance n

/-- Go on to the first code point that does not satisfy `p`. -/
def skipWhile (p : CodePoint → Bool) (c : Cursor) : Cursor :=
  c.advance (c.rest.takeWhile p).length

/-- Whether the next code point satisfies `p`. -/
def sees (c : Cursor) (p : CodePoint → Bool) : Bool := c.peek?.any p

/-- Whether a mark of the start or the end of a document is next. -/
def seesDocumentMark (c : Cursor) : Bool :=
  match c.rest with
  | .char '-' :: .char '-' :: .char '-' :: rest => endsBefore rest
  | .char '.' :: .char '.' :: .char '.' :: rest => endsBefore rest
  | _ => false

end Cursor

end ApiDocs.Yaml
