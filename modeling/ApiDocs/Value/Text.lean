import ApiDocs.Value
import ApiDocs.Decimal.Shortest
import ApiDocs.Text.Quoted

/-!
# The text of a value

A text stands for itself; inside a list or a mapping it is quoted. Lists stand in brackets and
mappings in braces, with a comma and a space between the items. An integer with too many digits is
not to be written.
-/

namespace ApiDocs.Value

open Text

mutual

def quoted : Value → Text
  | null => "None"
  | bool b => if b then "True" else "False"
  | int i => Text.integer i
  | float x => x.text
  | text s => Text.quoted s
  | list items => "[" ++ quotedItems items ++ "]"
  | map entries => "\x7b" ++ quotedEntries entries ++ "\x7d"

def quotedItems : List Value → Text
  | [] => []
  | [v] => v.quoted
  | v :: vs => v.quoted ++ ", " ++ quotedItems vs

def quotedEntries : List (Value × Value) → Text
  | [] => []
  | [(k, v)] => k.quoted ++ ": " ++ v.quoted
  | (k, v) :: es => k.quoted ++ ": " ++ v.quoted ++ ", " ++ quotedEntries es

end

def toText : Value → Text
  | text s => s
  | v => v.quoted

mutual

/-- Whether a value has a text in which no integer is too long. -/
def isWritable : Value → Bool
  | int i => (natural i.natAbs).length ≤ digitLimit
  | list items => areWritable items
  | map entries => entriesWritable entries
  | _ => true

def areWritable : List Value → Bool
  | [] => true
  | v :: vs => v.isWritable && areWritable vs

def entriesWritable : List (Value × Value) → Bool
  | [] => true
  | (k, v) :: es => k.isWritable && v.isWritable && entriesWritable es

end

/-- The text of a value that says something; empty for the others. -/
def givenText (v : Value) : Text := if v.isGiven then v.toText else []

end ApiDocs.Value
