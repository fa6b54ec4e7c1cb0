import ApiDocs.Yaml.Token

/-!
# Nodes

A document is a tree of scalars, sequences and mappings. Its tokens are read as a tree whatever the
scalars stand for; collections are in block or flow style.
-/

namespace ApiDocs.Yaml

/-- A part of a document. -/
inductive Node where
  /-- A scalar without quotes; what is left out is an empty one. -/
  | plain (s : Text)
  /-- A scalar in quotes or a block of lines. -/
  | text (s : Text)
  | sequence (items : List Node)
  | mapping (entries : List (Node × Node))
  deriving Repr

namespace Node

instance : Inhabited Node := ⟨.plain []⟩

def empty : Node := .plain []

abbrev Parsed := Except Failure (Node × List Token)

/-- Why the next token is out of place. -/
def misplaced : List Token → Failure
  | .broken why :: _ => why
  | _ => .badDocument

/-- Whether a node in a block mapping is left out, since one of its indicators is next. -/
def endsBlockNode : List Token → Bool
  | .key :: _ | .value :: _ | .blockEnd :: _ => true
  | _ => false

/-- Skip the comma that stands in front of every item of a flow collection but the first. -/
def skipComma (first : Bool) (ts : List Token) : Except Failure (List Token) :=
  match first, ts with
  | true, ts => .ok ts
  | false, .flowEntry :: ts => .ok ts
  | false, ts => .error (misplaced ts)

/-- How many collections may be open around a node. -/
def depthLimit : Nat := 490

mutual

/-- A node inside `depth` collections; in a block it may be a block collection. In a block mapping,
a sequence need not be indented further than its key. The last number bounds the depth and length of
what is read. -/
def parse (depth : Nat) (inBlock entriesInPlace : Bool) : Nat → List Token → Parsed
  | 0, _ => .error .badDocument
  | fuel + 1, ts =>
    if depthLimit < depth then .error .tooDeep
    else match ts with
      | .scalar isPlain s :: ts => .ok (if isPlain then .plain s else .text s, ts)
      | .flowSequenceStart :: ts => flowItems (depth + 1) true [] fuel ts
      | .flowMappingStart :: ts => flowEntries (depth + 1) true [] fuel ts
      | .blockSequenceStart :: ts =>
        if inBlock then blockItems (depth + 1) [] fuel ts else .error .badDocument
      | .blockMappingStart :: ts =>
        if inBlock then blockEntries (depth + 1) [] fuel ts else .error .badDocument
      | .blockEntry :: _ =>
        if entriesInPlace then itemsInPlace (depth + 1) [] fuel ts else .error .badDocument
      | _ => .error (misplaced ts)
termination_by structural fuel => fuel

def blockItems (depth : Nat) (items : List Node) : Nat → List Token → Parsed
  | 0, _ => .error .badDocument
  | fuel + 1, ts =>
    match ts with
    | .blockEnd :: ts => .ok (.sequence items.reverse, ts)
    | .blockEntry :: ts =>
      match ts with
      | .blockEntry :: _ | .blockEnd :: _ => blockItems depth (empty :: items) fuel ts
      | _ => do
        let (n, ts) ← parse depth true false fuel ts
        blockItems depth (n :: items) fuel ts
    | _ => .error (misplaced ts)
termination_by structural fuel => fuel

/-- The items of a sequence that is not indented further than its key. -/
def itemsInPlace (depth : Nat) (items : List Node) : Nat → List Token → Parsed
  | 0, _ => .error .badDocument
  | fuel + 1, ts =>
    match ts with
    | .blockEntry :: ts =>
      match ts with
      | .blockEntry :: _ | .key :: _ | .value :: _ | .blockEnd :: _ =>
        itemsInPlace depth (empty :: items) fuel ts
      | _ => do
        let (n, ts) ← parse depth true false fuel ts
        itemsInPlace depth (n :: items) fuel ts
    | _ => .ok (.sequence items.reverse, ts)
termination_by structural fuel => fuel

def blockEntries (depth : Nat) (entries : List (Node × Node)) : Nat → List Token → Parsed
  | 0, _ => .error .badDocument
  | fuel + 1, ts =>
    match ts with
    | .blockEnd :: ts => .ok (.mapping entries.reverse, ts)
    | .key :: ts => do
      let (k, ts) ← if endsBlockNode ts then .ok (empty, ts) else parse depth true true fuel ts
      let (v, ts) ← match ts with
        | .value :: ts =>
          if endsBlockNode ts then .ok (empty, ts) else parse depth true true fuel ts
        | _ => .ok (empty, ts)
      blockEntries depth ((k, v) :: entries) fuel ts
    | _ => .error (misplaced ts)
termination_by structural fuel => fuel

/-- The items of a flow sequence. An item may be a single entry of a mapping. -/
def flowItems (depth : Nat) (first : Bool) (items : List Node) : Nat → List Token → Parsed
  | 0, _ => .error .badDocument
  | fuel + 1, ts =>
    match ts with
    | .flowSequenceEnd :: ts => .ok (.sequence items.reverse, ts)
    | _ => do
      let ts ← skipComma first ts
      match ts with
      | .flowSequenceEnd :: ts => return (.sequence items.reverse, ts)
      | .key :: ts => do
        let (k, ts) ← match ts with
          | .value :: _ | .flowEntry :: _ | .flowSequenceEnd :: _ => .ok (empty, ts)
          | _ => parse (depth + 1) false false fuel ts
        let (v, ts) ← match ts with
          | .value :: .flowEntry :: ts => .ok (empty, .flowEntry :: ts)
          | .value :: .flowSequenceEnd :: ts => .ok (empty, .flowSequenceEnd :: ts)
          | .value :: ts => parse (depth + 1) false false fuel ts
          | _ => .ok (empty, ts)
        flowItems depth false (.mapping [(k, v)] :: items) fuel ts
      | _ => do
        let (n, ts) ← parse depth false false fuel ts
        flowItems depth false (n :: items) fuel ts
termination_by structural fuel => fuel

def flowEntries (depth : Nat) (first : Bool) (entries : List (Node × Node)) :
    Nat → List Token → Parsed
  | 0, _ => .error .badDocument
  | fuel + 1, ts =>
    match ts with
    | .flowMappingEnd :: ts => .ok (.mapping entries.reverse, ts)
    | _ => do
      let ts ← skipComma first ts
      match ts with
      | .flowMappingEnd :: ts => return (.mapping entries.reverse, ts)
      | .key :: ts => do
        let (k, ts) ← match ts with
          | .value :: _ | .flowEntry :: _ | .flowMappingEnd :: _ => .ok (empty, ts)
          | _ => parse depth false false fuel ts
        let (v, ts) ← match ts with
          | .value :: .flowEntry :: ts => .ok (empty, .flowEntry :: ts)
          | .value :: .flowMappingEnd :: ts => .ok (empty, .flowMappingEnd :: ts)
          | .value :: ts => parse depth false false fuel ts
          | _ => .ok (empty, ts)
        flowEntries depth false ((k, v) :: entries) fuel ts
      | _ => do
        let (k, ts) ← parse depth false false fuel ts
        flowEntries depth false ((k, empty) :: entries) fuel ts
termination_by structural fuel => fuel

end

/-- The node of the tokens of a text, which holds at most one document. -/
def ofTokens (ts : List Token) : Except Failure Node := do
  let body := match ts with
    | .documentStart :: ts => ts
    | ts => ts
  let isEmpty := match ts, body with
    | _, [] => true
    | .documentStart :: _, .documentStart :: _ => true
    | .documentStart :: _, .documentEnd :: _ => true
    | _, _ => false
  let (n, rest) ← if isEmpty then .ok (empty, body) else parse 0 true false (4 * ts.length + 4) body
  let after := rest.dropWhile fun
    | .documentEnd => true
    | _ => false
  if after.isEmpty then return n else throw (misplaced after)

end Node

end ApiDocs.Yaml
