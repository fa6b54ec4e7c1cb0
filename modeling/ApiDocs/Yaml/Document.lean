import ApiDocs.Text.Lines
import ApiDocs.Yaml.Node
import ApiDocs.Yaml.Plain

/-!
# Documents

A text is read as a tree first, and then the scalars of the tree get their values. Of entries with
one key the last value stands. Where several scalars have no value, the one that is nearest to the
root is at fault, and of those equally near the first one.

This is a part of the notation: a document with anchors, aliases or tags is refused, and a date is a
text. The program leaves its reader open; only when it is run is it this one.
-/

namespace ApiDocs.Yaml

namespace Node

/-- The value of a scalar that is a key; an equals sign alone is no reserved form there. -/
def plainKey (s : Text) : Except Failure Value := if s = "=" then .ok (.text s) else plainValue s

/-! ### Values -/

def keyValue : Node → Value
  | plain s => (plainKey s).toOption.getD .null
  | text s => .text s
  | _ => .null

mutual

/-- The value of a node; a scalar that has none counts as null. -/
def value : Node → Value
  | plain s => (plainValue s).toOption.getD .null
  | text s => .text s
  | sequence items => .list (itemValues items)
  | mapping entries => .map (entryValues [] entries)

def itemValues : List Node → List Value
  | [] => []
  | n :: ns => n.value :: itemValues ns

/-- The entries of a mapping, put in one after the other. -/
def entryValues (found : List (Value × Value)) : List (Node × Node) → List (Value × Value)
  | [] => found
  | (k, v) :: rest => entryValues (Value.put k.keyValue v.value found) rest

end

/-! ### Faults -/

/-- Lists by their distance from a root. -/
abbrev Levels (α : Type) := List (List α)

/-- Put the levels of two trees side by side. -/
def Levels.beside {α : Type} : Levels α → Levels α → Levels α
  | [], ys => ys
  | xs, [] => xs
  | x :: xs, y :: ys => (x ++ y) :: Levels.beside xs ys

def faultOf {α : Type} : Except Failure α → Levels Failure
  | .ok _ => []
  | .error e => [[e]]

/-- The fault of a node as a key, which has to be a scalar. -/
def keyFaults : Node → Levels Failure
  | plain s => faultOf (plainKey s)
  | text _ => []
  | _ => [[.badDocument]]

mutual

/-- The faults of a node by distance. -/
def faults : Node → Levels Failure
  | plain s => faultOf (plainValue s)
  | text _ => []
  | sequence items => [] :: itemFaults items
  | mapping entries => [] :: entryFaults entries

def itemFaults : List Node → Levels Failure
  | [] => []
  | n :: ns => n.faults.beside (itemFaults ns)

def entryFaults : List (Node × Node) → Levels Failure
  | [] => []
  | (k, v) :: rest => k.keyFaults.beside (v.faults.beside (entryFaults rest))

end

/-- The value of a node without faults. -/
def evaluate (n : Node) : Except Failure Value :=
  match n.faults.flatten with
  | [] => .ok n.value
  | e :: _ => .error e

end Node

/-- Whether a code point may stand in a document. -/
def isAllowed (c : CodePoint) : Bool :=
  let n := c.toNat
  n = 9 || n = 10 || n = 13 || (0x20 ≤ n && n ≤ 0x7E) || n = 0x85 || (0xA0 ≤ n && n ≤ 0xD7FF) ||
    (0xE000 ≤ n && n ≤ 0xFFFD) || 0x10000 ≤ n

def read (cs : Text) : Except Failure Value :=
  let cs := Text.unifyLineEnds cs
  if cs.all isAllowed then Node.ofTokens (tokens cs) >>= Node.evaluate else .error .badDocument

end ApiDocs.Yaml
