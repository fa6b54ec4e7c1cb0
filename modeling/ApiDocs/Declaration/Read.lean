import ApiDocs.Comment.Margin
import ApiDocs.Declaration
import ApiDocs.Failure
import ApiDocs.Text.Case

/-!
# Reading declarations

Declarations are read from mappings. A field that is absent or says nothing is empty. A tag may be
written in short as `@kind text`, and a parameter as a type with or without a name after it.
-/

namespace ApiDocs

open Text

namespace Value

/-- The items of a value that is gone through one by one: those of a list, the keys of a mapping,
and the code points of a text. -/
def items : Value → Except Failure (List Value)
  | list vs => .ok vs
  | map es => .ok (es.map (·.1))
  | text s => .ok (s.map fun c => text [c])
  | _ => .error .wrongSort

/-- The items of a value that says something; none for the others. -/
def givenItems (v : Value) : Except Failure (List Value) :=
  if v.isGiven then v.items else .ok []

end Value

namespace Declaration

open Value (field checkWritable)

/-- Take the last word of a written parameter as its name; a single word is a type. -/
def Parameter.ofText (cs : Text) : Parameter :=
  let body := trimRight cs
  let last := takeRightWhile (! isBlank ·) body
  let before := trimRight (dropRightWhile (! isBlank ·) body)
  if before.isEmpty then ⟨[], trim cs⟩ else ⟨last, before⟩

def Parameter.parts : Value → List Value
  | .map es => [field es "name", field es "type"]
  | v => [v]

def Parameter.ofValue : Value → Parameter
  | .map es => ⟨(field es "name").givenText, (field es "type").givenText⟩
  | v => .ofText v.toText

/-- The kind of a tag, without the signs in front of it and in lower case. -/
def Tag.kindOfText (cs : Text) : Text := lower (cs.dropWhile (· == '@'))

def Tag.parts : Value → List Value
  | .map es => [field es "kind", field es "text", field es "name"]
  | v => [v]

def Tag.ofValue : Value → Tag
  | .map es =>
    { kind := kindOfText (field es "kind").givenText
      text := Comment.asText (field es "text")
      name := (field es "name").givenText }
  | v =>
    let (kind, rest) := cutAt ' ' ((trim v.toText).dropWhile (· == '@'))
    { kind := lower kind, text := trim (rest.getD []) }

/-- Read a declaration from the entries of a mapping. The fields are gone through in a fixed order,
which shows in the first failure. -/
def ofEntries (es : List (Value × Value)) : Except Failure Declaration := do
  checkWritable [field es "kind", field es "name", field es "scope", field es "comment"]
  let tags ← (field es "tags").givenItems
  checkWritable (tags.flatMap Tag.parts)
  checkWritable [field es "superclass"]
  let interfaces ← (field es "interfaces").givenItems
  checkWritable interfaces
  let parameters ← match field es "parameters" with
    | .null => pure none
    | v => some <$> v.items
  checkWritable ((parameters.getD []).flatMap Parameter.parts)
  checkWritable [field es "returns", field es "type"]
  let modifiers ← (field es "modifiers").givenItems
  checkWritable modifiers
  checkWritable [field es "signature"]
  return {
    kind := trim (field es "kind").givenText
    name := trim (field es "name").givenText
    scope := trim (field es "scope").givenText
    comment := Comment.asText (field es "comment")
    tags := tags.map Tag.ofValue
    superclass :=
      if (field es "superclass").isGiven then some (field es "superclass").toText else none
    interfaces := interfaces.map Value.toText
    parameters := parameters.map (·.map Parameter.ofValue)
    returns := (field es "returns").givenText
    type := (field es "type").givenText
    modifiers := modifiers.map Value.toText
    signature := Comment.asText (field es "signature") }

/-- Read the items that are mappings; the others are left out. -/
def ofItems : List Value → Except Failure (List Declaration)
  | [] => .ok []
  | .map es :: rest => do return (← ofEntries es) :: (← ofItems rest)
  | _ :: rest => ofItems rest

/-- Read declarations from a value that holds them. -/
def ofValue (v : Value) : Except Failure (List Declaration) := v.items >>= ofItems

/-- Read declarations from a model document: the items of its field `declarations`. -/
def ofDocument (v : Value) : Except Failure (List Declaration) :=
  if v.isGiven then
    match v with
    | .map es => (field es "declarations").givenItems >>= ofItems
    | _ => .error .noMapping
  else .ok []

end Declaration

end ApiDocs
