import ApiDocs.Failure
import ApiDocs.Text.Digits
import ApiDocs.Yaml.Cursor

/-!
# The texts of scalars

A scalar is plain, in single or double quotes, or a block of lines. A line end inside a plain or
quoted scalar counts as a space, and one with empty lines after it as these empty lines.
-/

namespace ApiDocs.Yaml

/-- A text and the position after it. -/
abbrev Read := Except Failure (Text × Cursor)

/-- What a line end and the empty lines after it stand for. -/
def folded (first : CodePoint) (emptyLines : Text) : Text :=
  if countedBreak first ≠ '\n' then first :: emptyLines
  else if emptyLines.isEmpty then [' '] else emptyLines

/-! ### Plain scalars -/

/-- How many code points of a plain scalar follow without white space. -/
def plainLength (inFlow : Bool) : Text → Nat
  | [] => 0
  | c :: cs =>
    let flowIndicator (d : CodePoint) : Bool := inFlow && (",[]\x7b\x7d" : Text).contains d
    if isSpace c || isBreak c || flowIndicator c || (inFlow && c = '?') ||
        (c = ':' && (endsBefore cs || cs.head?.any flowIndicator)) then 0
    else plainLength inFlow cs + 1

/-- White space inside a plain scalar. -/
structure PlainGap where
  /-- What it stands for; nothing if the scalar ends here. -/
  text : Text
  cursor : Cursor
  /-- Whether a line ended. -/
  brokeLine : Bool

/-- Skip spaces and line ends, collecting the latter, up to a mark of a document. -/
def plainBreaks : Nat → Cursor → Option Text × Cursor
  | 0, c => (some [], c)
  | fuel + 1, c =>
    match c.peek? with
    | some ch =>
      if ch = ' ' then plainBreaks fuel c.next
      else if isBreak ch then
        if c.next.seesDocumentMark then (none, c.next)
        else
          let (more, after) := plainBreaks fuel c.next
          (more.map (countedBreak ch :: ·), after)
      else (some [], c)
    | none => (some [], c)

/-- The white space after a part of a plain scalar. -/
def plainGap (c : Cursor) : PlainGap :=
  let spaces : Text := c.rest.takeWhile (· == ' ')
  let c := c.advance spaces.length
  match c.peek? with
  | some ch =>
    if isBreak ch then
      if c.next.seesDocumentMark then ⟨[], c.next, true⟩
      else match plainBreaks c.rest.length c.next with
        | (some breaks, c) => ⟨folded ch breaks, c, true⟩
        | (none, c) => ⟨[], c, true⟩
    else ⟨spaces, c, false⟩
  | none => ⟨spaces, c, false⟩

/-- A plain scalar whose lines are indented by at least `indent`, and whether a line ended after its
last part. -/
def plainFrom (inFlow : Bool) (indent : Int) (gap : Text) (brokeLine : Bool) :
    Nat → Cursor → Text × Cursor × Bool
  | 0, c => ([], c, brokeLine)
  | fuel + 1, c =>
    let n := if c.sees (· == '#') then 0 else plainLength inFlow c.rest
    if n = 0 then ([], c, brokeLine)
    else
      let part := gap ++ c.rest.take n
      let after := plainGap (c.advance n)
      if after.text.isEmpty || after.cursor.sees (· == '#') ||
          (! inFlow && (after.cursor.column : Int) < indent) then
        (part, after.cursor, after.brokeLine)
      else
        let (more, last) :=
          plainFrom inFlow indent after.text after.brokeLine fuel after.cursor
        (part ++ more, last)

def plain (inFlow : Bool) (indent : Int) (c : Cursor) : Text × Cursor × Bool :=
  plainFrom inFlow indent [] false c.rest.length c

/-! ### Quoted scalars -/

/-- The empty lines inside a quoted scalar, up to other code points. -/
def quotedBreaks : Nat → Cursor → Read
  | 0, _ => .error .badDocument
  | fuel + 1, c =>
    if c.seesDocumentMark then .error .badDocument
    else
      let c := c.skipWhile isSpace
      match c.peek? with
      | some ch =>
        if isBreak ch then
          (quotedBreaks fuel c.next).map fun r => (countedBreak ch :: r.1, r.2)
        else .ok ([], c)
      | none => .ok ([], c)

/-- The white space inside a quoted scalar. -/
def quotedGap (c : Cursor) : Read :=
  let spaces := c.rest.takeWhile isSpace
  let c := c.advance spaces.length
  match c.peek? with
  | none => .error .badDocument
  | some ch =>
    if isBreak ch then
      (quotedBreaks c.rest.length c.next).map fun r => (folded ch r.1, r.2)
    else .ok (spaces, c)

/-- The short escapes with the code points that they stand for. -/
def shortEscapes : List (CodePoint × CodePoint) :=
  [ ('0', '\x00'), ('a', '\x07'), ('b', '\x08'), ('t', '\t'), ('\t', '\t'), ('n', '\n'),
    ('v', '\x0b'), ('f', '\x0c'), ('r', '\r'), ('e', '\x1b'), (' ', ' '), ('"', '"'),
    ('\\', '\\'), ('/', '/'), ('N', '\u0085'), ('_', '\u00a0'), ('L', '\u2028'),
    ('P', '\u2029') ]

/-- The letters of the escapes by number, and how many digits these have. -/
def numericEscapes : List (CodePoint × Nat) := [('x', 2), ('u', 4), ('U', 8)]

/-- The number that the next `width` hexadecimal digits stand for. -/
def hexNumber? (width : Nat) (cs : Text) : Option Nat :=
  let ds := cs.take width
  if ds.length = width && ds.all fun d => (Text.digitValue? 16 d).isSome then
    some (Text.ofDigits 16 ds)
  else none

/-- The code point with a number. A number of more than 31 bits is too large to ask for. -/
def numbered (n : Nat) : Except Failure CodePoint :=
  match CodePoint.ofNat? n with
  | some c => .ok c
  | none => .error (if n < 0x80000000 then .noCodePoint else .tooLarge)

/-- What an escape stands for; the cursor is after the backslash. -/
def escape (c : Cursor) : Read :=
  match c.peek? with
  | none => .error .badDocument
  | some ch =>
    match shortEscapes.lookup ch, numericEscapes.lookup ch with
    | some e, _ => .ok ([e], c.next)
    | none, some width =>
      match hexNumber? width c.next.rest with
      | some n => (numbered n).map fun e => ([e], c.next.advance width)
      | none => .error .badDocument
    | none, none => if isBreak ch then quotedBreaks c.rest.length c.next else .error .badDocument

/-- The rest of a quoted scalar, up to and with the closing quote. -/
def quotedFrom (double : Bool) : Nat → Cursor → Read
  | 0, _ => .error .badDocument
  | fuel + 1, c =>
    match c.peek? with
    | none => .error .badDocument
    | some ch =>
      if ! double && ch = '\'' && c.next.sees (· == '\'') then
        (quotedFrom double fuel c.next.next).map fun r => ('\'' :: r.1, r.2)
      else if ch = (if double then '"' else '\'') then .ok ([], c.next)
      else do
        let (part, c) ←
          if double && ch = '\\' then escape c.next
          else if isSpace ch || isBreak ch then quotedGap c
          else .ok ([ch], c.next)
        let (more, c) ← quotedFrom double fuel c
        return (part ++ more, c)

def quoted (double : Bool) (c : Cursor) : Read := quotedFrom double (c.rest.length + 1) c.next

/-! ### Block scalars -/

/-- What is done with the line ends at the end of a block. -/
inductive Chomping where
  | strip | clip | keep
  deriving DecidableEq, Repr

/-- The indicators after the sign of a block: chomping and indentation, in either order. -/
def blockIndicators (c : Cursor) : Except Failure (Chomping × Option Nat × Cursor) :=
  let chomping (c : Cursor) : Chomping × Cursor :=
    match c.peek? with
    | some '+' => (.keep, c.next)
    | some '-' => (.strip, c.next)
    | _ => (.clip, c)
  let increment (c : Cursor) : Option Nat × Cursor :=
    match c.peek? with
    | some d => if d.is Char.isDigit then (some (d.toNat - '0'.toNat), c.next) else (none, c)
    | none => (none, c)
  let (n, afterDigit) := increment c
  let (chomp, n, c) :=
    if n.isSome then
      let (chomp, c) := chomping afterDigit
      (chomp, n, c)
    else
      let (chomp, c) := chomping c
      if chomp = .clip then (chomp, none, c)
      else
        let (n, c) := increment c
        (chomp, n, c)
  if n = some 0 then .error .badDocument
  else if c.rest.isEmpty || c.sees fun ch => ch = ' ' || isBreak ch then .ok (chomp, n, c)
  else .error .badDocument

/-- Skip spaces and a comment to the next line. -/
def restOfLine (c : Cursor) : Except Failure Cursor :=
  let c := c.skipWhile (· == ' ')
  let c := if c.sees (· == '#') then c.skipWhile (! isBreak ·) else c
  match c.peek? with
  | none => .ok c
  | some ch => if isBreak ch then .ok c.next else .error .badDocument

/-- The empty lines in front of a block, and the deepest indentation among them and the first
line. -/
def blockStart (deepest : Nat) : Nat → Cursor → Text × Nat × Cursor
  | 0, c => ([], deepest, c)
  | fuel + 1, c =>
    match c.peek? with
    | some ch =>
      if isBreak ch then
        let (breaks, deepest, after) := blockStart deepest fuel c.next
        (countedBreak ch :: breaks, deepest, after)
      else if ch = ' ' then blockStart (max deepest c.next.column) fuel c.next
      else ([], deepest, c)
    | none => ([], deepest, c)

def skipIndent (indent : Nat) : Nat → Cursor → Cursor
  | 0, c => c
  | fuel + 1, c =>
    if c.column < indent && c.sees (· == ' ') then skipIndent indent fuel c.next else c

/-- The empty lines inside a block. -/
def blockBreaks (indent : Nat) : Nat → Cursor → Text × Cursor
  | 0, c => ([], c)
  | fuel + 1, c =>
    let c := skipIndent indent indent c
    match c.peek? with
    | some ch =>
      if isBreak ch then
        let (breaks, after) := blockBreaks indent fuel c.next
        (countedBreak ch :: breaks, after)
      else ([], c)
    | none => ([], c)

/-- How the text of a block is put together. -/
structure BlockStyle where
  /-- Whether line ends between lines that are not indented further become spaces. -/
  folds : Bool
  chomping : Chomping
  indent : Nat

/-- What stands at the end of a block, after its last line. -/
def chomped (style : BlockStyle) (lineEnd breaks : Text) : Text :=
  match style.chomping with
  | .strip => []
  | .clip => lineEnd
  | .keep => lineEnd ++ breaks

/-- What stands between two lines of a block, empty lines aside. -/
def blockJoint (style : BlockStyle) (line lineEnd breaks : Text) (next : Cursor) : Text :=
  if style.folds && lineEnd = [.char '\n'] && ! line.head?.any isSpace && ! next.sees isSpace then
    if breaks.isEmpty then [' '] else []
  else lineEnd

/-- The lines of a block, with the empty lines in front. -/
def blockLines (style : BlockStyle) (breaks : Text) : Nat → Cursor → Text × Cursor
  | 0, c => ([], c)
  | fuel + 1, c =>
    let line := c.rest.takeWhile (! isBreak ·)
    let c := c.advance line.length
    let lineEnd := c.peek?.toList.map countedBreak
    let (more, c) := blockBreaks style.indent (c.rest.length + 1) c.next
    if c.column = style.indent && ! c.rest.isEmpty then
      let (tail, after) := blockLines style more fuel c
      (breaks ++ line ++ blockJoint style line lineEnd more c ++ tail, after)
    else (breaks ++ line ++ chomped style lineEnd more, c)

/-- A block scalar inside a collection of some indentation; the cursor is at the sign of the
block. -/
def block (folds : Bool) (outer : Int) (c : Cursor) : Read := do
  let (chomping, increment, c) ← blockIndicators c.next
  let c ← restOfLine c
  let least := (max (outer + 1) 1).toNat
  let fuel := c.rest.length + 1
  let (breaks, indent, c) :=
    match increment with
    | some n =>
      let indent := least + n - 1
      let (breaks, c) := blockBreaks indent fuel c
      (breaks, indent, c)
    | none =>
      let (breaks, deepest, c) := blockStart 0 fuel c
      (breaks, max least deepest, c)
  let style : BlockStyle := { folds, chomping, indent }
  if c.column = indent && ! c.rest.isEmpty then return blockLines style breaks fuel c
  else return (chomped style [] breaks, c)

end ApiDocs.Yaml
