import ApiDocs.Decimal.Binary64
import ApiDocs.Text

/-!
# Values of a data document

A model file and a settings file are read into values: scalars, lists, and mappings whose entries
keep the order in which they were written. Keys are scalars. Numbers and truth values that are
equal as numbers are one key. Dates, times, binary data and sets, which the notation of such files
has too, are left out.
-/

namespace ApiDocs

open Decimal

/-- A value of a data document. -/
inductive Value where
  | null
  | bool (b : Bool)
  | int (i : Int)
  | float (x : Binary64)
  | text (s : Text)
  | list (items : List Value)
  | map (entries : List (Value × Value))
  deriving Repr

instance : Inhabited Value := ⟨.null⟩

namespace Value

/-- Whether a value says something: it is not null, false, zero or empty. -/
def isGiven : Value → Bool
  | null => false
  | bool b => b
  | int i => i ≠ 0
  | float x => ! x.isZero
  | text s => s ≠ []
  | list items => ! items.isEmpty
  | map entries => ! entries.isEmpty

/-- Whether a value is a scalar, which may be a key. -/
def isScalar : Value → Bool
  | list _ => false
  | map _ => false
  | _ => true

/-- The integer that a truth value or an integer stands for. -/
def integer? : Value → Option Int
  | bool b => some (if b then 1 else 0)
  | int i => some i
  | _ => none

/-- Whether a floating point number has the value of an integer. -/
def floatIs (x : Binary64) (i : Int) : Bool :=
  match x with
  | .finite .. => x.signedRatio.1 = i * x.signedRatio.2
  | _ => false

/-- Whether two scalars are one key. What is not a number is one key with itself: a document has a
single such value, and a key is found if it is the very same value, whether or not it equals
itself. -/
def sameKey (a b : Value) : Bool :=
  match a.integer?, b.integer? with
  | some i, some j => i = j
  | some i, none => match b with
    | float x => floatIs x i
    | _ => false
  | none, some j => match a with
    | float x => floatIs x j
    | _ => false
  | none, none => match a, b with
    | null, null => true
    | text s, text t => s = t
    | float x, float y => x.same y
    | _, _ => false

/-- The value of a key among entries. -/
def find? (key : Value) : List (Value × Value) → Option Value
  | [] => none
  | (k, v) :: rest => if k.sameKey key then some v else find? key rest

/-- Set the value of a key: an entry that is there keeps its key and its place. -/
def put (key value : Value) : List (Value × Value) → List (Value × Value)
  | [] => [(key, value)]
  | (k, v) :: rest =>
    if k.sameKey key then (k, value) :: rest else (k, v) :: put key value rest

/-- The value of a named field; null if there is none. -/
def field (entries : List (Value × Value)) (name : Text) : Value :=
  (find? (text name) entries).getD null

end Value

end ApiDocs
