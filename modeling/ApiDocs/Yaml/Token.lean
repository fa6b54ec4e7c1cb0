import ApiDocs.Yaml.Scalar

/-!
# Tokens of a document

Nesting by indentation is made explicit: block collections get tokens for their start and end, and a
key that is known as one only by the colon after it gets its token in front. Where the document
cannot be read any further, the last token says why.
-/

namespace ApiDocs.Yaml

/-- A token of a document. -/
inductive Token where
  | documentStart | documentEnd
  | blockSequenceStart | blockMappingStart | blockEnd | blockEntry
  | flowSequenceStart | flowSequenceEnd | flowMappingStart | flowMappingEnd | flowEntry
  | key | value
  | scalar (isPlain : Bool) (text : Text)
  /-- The document cannot be read any further. -/
  | broken (why : Failure)
  deriving Repr

/-- A place where a key without an indicator may have begun. -/
structure KeyStart where
  /-- How many tokens are in front of it. -/
  tokenCount : Nat
  /-- Whether it has to be a key, since it begins a line of a block mapping. -/
  required : Bool
  index : Nat
  line : Nat
  column : Nat

/-- The tokens found so far and what is open. -/
structure Scanner where
  cursor : Cursor
  /-- The tokens found so far, the last one first. -/
  found : List Token := []
  /-- How many flow collections are open. -/
  flowDepth : Nat := 0
  /-- The column of the innermost block collection; below zero outside all. -/
  indent : Int := -1
  outerIndents : List Int := []
  /-- Whether a key without an indicator may begin here. -/
  keyAllowed : Bool := true
  /-- The place where a key may have begun, for each depth of flow collections. -/
  keyStarts : List (Nat × KeyStart) := []

namespace Scanner

def inFlow (s : Scanner) : Bool := 0 < s.flowDepth

def push (s : Scanner) (t : Token) : Scanner := { s with found := t :: s.found }

/-- Put tokens in behind the first `count` ones. -/
def insertAt (s : Scanner) (count : Nat) (ts : List Token) : Scanner :=
  let later := s.found.length - count
  { s with found := s.found.take later ++ ts.reverse ++ s.found.drop later }

/-! ### Indentation -/

/-- Open a block collection if the column is deeper than the innermost one. -/
def deepen (s : Scanner) (column : Nat) : Bool × Scanner :=
  if s.indent < column then
    (true, { s with indent := column, outerIndents := s.indent :: s.outerIndents })
  else (false, s)

/-- Close block collections, given by their columns from the inside out, that are deeper than a
column. -/
def closeDeeper (column : Int) (s : Scanner) : List Int → Scanner
  | [] => s
  | outer :: rest =>
    if column < s.indent then
      closeDeeper column { s.push .blockEnd with indent := outer, outerIndents := rest } rest
    else s

/-- Close the block collections that are deeper than a column. -/
def unwind (s : Scanner) (column : Int) : Scanner :=
  if s.inFlow then s else closeDeeper column s s.outerIndents

/-! ### Keys without an indicator -/

/-- Forget the place at this depth; a required key cannot be forgotten. -/
def dropKeyStart (s : Scanner) : Except Failure Scanner :=
  if (s.keyStarts.lookup s.flowDepth).any (·.required) then .error .badDocument
  else .ok { s with keyStarts := s.keyStarts.filter (·.1 != s.flowDepth) }

/-- Keep this place as one where a key may begin. -/
def saveKeyStart (s : Scanner) : Except Failure Scanner := do
  let c := s.cursor
  let required := ! s.inFlow && s.indent = c.column
  if s.keyAllowed then
    let s ← s.dropKeyStart
    let start : KeyStart :=
      { tokenCount := s.found.length, required, index := c.index, line := c.line
        column := c.column }
    return { s with keyStarts := (s.flowDepth, start) :: s.keyStarts }
  else return s

/-- Whether a key cannot have begun at a place: a key stays on its line and has at most 1024
code points. -/
def isStale (c : Cursor) (start : KeyStart) : Bool :=
  start.line != c.line || start.index + 1024 < c.index

/-- Forget the places where no key can have begun. -/
def dropStale (s : Scanner) : Except Failure Scanner :=
  let stale := s.keyStarts.filter fun k => isStale s.cursor k.2
  if stale.any (·.2.required) then .error .badDocument
  else .ok { s with keyStarts := s.keyStarts.filter fun k => ! isStale s.cursor k.2 }

/-! ### Tokens -/

/-- Skip spaces, comments and line ends. Outside flow collections a key may begin on a new line. -/
def skipBlank (s : Scanner) : Nat → Scanner
  | 0 => s
  | fuel + 1 =>
    let c := s.cursor.skipWhile (· == ' ')
    let c := if c.sees (· == '#') then c.skipWhile (! isBreak ·) else c
    if c.sees isBreak then
      skipBlank { s with cursor := c.next, keyAllowed := s.keyAllowed || ! s.inFlow } fuel
    else { s with cursor := c }

/-- Take a token of some code points, after which a key may begin or not. -/
def take (s : Scanner) (t : Token) (length : Nat) (keyAllowed : Bool) : Scanner :=
  { s.push t with cursor := s.cursor.advance length, keyAllowed }

def documentMark (s : Scanner) (t : Token) : Except Failure Scanner := do
  let s ← (s.unwind (-1)).dropKeyStart
  return s.take t 3 false

def openFlow (s : Scanner) (t : Token) : Except Failure Scanner := do
  let s ← s.saveKeyStart
  return { s.take t 1 true with flowDepth := s.flowDepth + 1 }

def closeFlow (s : Scanner) (t : Token) : Except Failure Scanner := do
  if ! s.inFlow then throw .badDocument
  let s ← s.dropKeyStart
  return { s.take t 1 false with flowDepth := s.flowDepth - 1 }

/-- A comma between the entries of a flow collection. -/
def flowComma (s : Scanner) : Except Failure Scanner := do
  let s ← { s with keyAllowed := true }.dropKeyStart
  return s.take .flowEntry 1 true

/-- Open a block collection here, if none of this column is open. -/
def openBlock (s : Scanner) (t : Token) : Except Failure Scanner :=
  if s.inFlow then .ok s
  else if ! s.keyAllowed then .error .badDocument
  else
    let (opened, s) := s.deepen s.cursor.column
    .ok (if opened then s.push t else s)

/-- The sign of an entry of a block sequence. -/
def blockDash (s : Scanner) : Except Failure Scanner := do
  let s ← (← s.openBlock .blockSequenceStart).dropKeyStart
  return s.take .blockEntry 1 true

def keyMark (s : Scanner) : Except Failure Scanner := do
  let s ← (← s.openBlock .blockMappingStart).dropKeyStart
  return s.take .key 1 (! s.inFlow)

/-- The indicator of a value. What stands before it on the line may be a key. -/
def valueMark (s : Scanner) : Except Failure Scanner := do
  match s.keyStarts.lookup s.flowDepth with
  | some start =>
    let s := { s with keyStarts := s.keyStarts.filter (·.1 != s.flowDepth) }
    let (opened, s) := if s.inFlow then (false, s) else s.deepen start.column
    let s := s.insertAt start.tokenCount (if opened then [.blockMappingStart, .key] else [.key])
    return s.take .value 1 false
  | none =>
    let s ← (← s.openBlock .blockMappingStart).dropKeyStart
    return s.take .value 1 (! s.inFlow)

def blockScalar (s : Scanner) (folds : Bool) : Except Failure Scanner := do
  let s ← s.dropKeyStart
  let (text, cursor) ← block folds s.indent s.cursor
  return { s.push (.scalar false text) with cursor, keyAllowed := true }

def quotedScalar (s : Scanner) (double : Bool) : Except Failure Scanner := do
  let s ← s.saveKeyStart
  let (text, cursor) ← quoted double s.cursor
  return { s.push (.scalar false text) with cursor, keyAllowed := false }

def plainScalar (s : Scanner) : Except Failure Scanner := do
  let s ← s.saveKeyStart
  let (text, cursor, brokeLine) := plain s.inFlow (s.indent + 1) s.cursor
  return { s.push (.scalar true text) with cursor, keyAllowed := brokeLine }

/-- Whether a plain scalar may begin with a code point. -/
def beginsPlain (s : Scanner) (ch : CodePoint) (rest : Text) : Bool :=
  (! (isSpace ch || isBreak ch) && ! ("-?:,[]\x7b\x7d#&*!|>'\"%@\x60" : Text).contains ch) ||
    (! endsBefore rest && (ch = '-' || (! s.inFlow && (ch = '?' || ch = ':'))))

def token (s : Scanner) (ch : CodePoint) (rest : Text) : Except Failure Scanner :=
  let atMark := s.cursor.column = 0 && s.cursor.seesDocumentMark
  if ch = '%' && s.cursor.column = 0 then .error .badDocument
  else if ch = '-' && atMark then s.documentMark .documentStart
  else if ch = '.' && atMark then s.documentMark .documentEnd
  else if ch = '[' then s.openFlow .flowSequenceStart
  else if ch = '{' then s.openFlow .flowMappingStart
  else if ch = ']' then s.closeFlow .flowSequenceEnd
  else if ch = '}' then s.closeFlow .flowMappingEnd
  else if ch = ',' then s.flowComma
  else if ch = '-' && endsBefore rest then
    if s.inFlow then .error .badDocument else s.blockDash
  else if ch = '?' && (s.inFlow || endsBefore rest) then s.keyMark
  else if ch = ':' && (s.inFlow || endsBefore rest) then s.valueMark
  else if ch = '|' && ! s.inFlow then s.blockScalar false
  else if ch = '>' && ! s.inFlow then s.blockScalar true
  else if ch = '\'' then s.quotedScalar false
  else if ch = '"' then s.quotedScalar true
  else if s.beginsPlain ch rest then s.plainScalar
  else .error .badDocument

/-- Find one more token; the result says whether the document ended instead. -/
def next (s : Scanner) : Except Failure (Scanner × Bool) := do
  let s ← (s.skipBlank (s.cursor.rest.length + 1)).dropStale
  match s.cursor.rest with
  | [] => return (← (s.unwind (-1)).dropKeyStart, true)
  | ch :: rest => return (← (s.unwind s.cursor.column).token ch rest, false)

/-- The tokens in front of every place where a key may yet turn out to begin. -/
def settled (s : Scanner) : List Token :=
  let undecided := s.keyStarts.filter fun k => ! isStale s.cursor k.2
  s.found.reverse.take (undecided.foldl (fun n k => min n k.2.tokenCount) s.found.length)

/-- All tokens up to the end of the document. Where it is broken, only the settled tokens stand in
front of the last one. The second argument bounds the number of tokens. -/
def scan (s : Scanner) : Nat → List Token
  | 0 => s.settled ++ [.broken .badDocument]
  | fuel + 1 =>
    match s.next with
    | .ok (s, true) => s.found.reverse
    | .ok (s, false) => scan s fuel
    | .error why => s.settled ++ [.broken why]

end Scanner

/-- The tokens of a document. A byte order mark in front is skipped. -/
def tokens (cs : Text) : List Token :=
  let start : Cursor := { rest := cs }
  let cursor := if start.sees (· == '\ufeff') then start.next else start
  Scanner.scan { cursor } (cs.length + 1)

end ApiDocs.Yaml
