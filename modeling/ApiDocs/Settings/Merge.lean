import ApiDocs.Failure
import ApiDocs.Sorting

/-!
# Deep merging of mappings

An update is merged into a base key by key. Where both have a mapping, these are merged; where both
have a list under an additive key, the result is the sorted union; in every other case the update's
value stands. How numbers stand that have no order, since one of them is not a number, is left open.
-/

namespace ApiDocs.Value

/-! ### Sorted unions -/

/-- The place of a number in the order of numbers: infinities lie outside, and finite numbers are
ratios. What is not a number has no place. -/
def numberKey? : Value → Option (Int × Int × Nat)
  | bool b => some (0, if b then 1 else 0, 1)
  | int i => some (0, i, 1)
  | float .nan => none
  | float (.infinite s) => some (if s then -1 else 1, 0, 1)
  | float x => let r := x.signedRatio; some (0, r.1, r.2)
  | _ => none

/-- Whether a number is at most another. -/
def numberLe (a b : Int × Int × Nat) : Bool :=
  a.1 < b.1 || (a.1 = b.1 && a.2.1 * b.2.2 ≤ b.2.1 * a.2.2)

/-- Whether a value can be compared with numbers. -/
def isNumeric : Value → Bool
  | bool _ | int _ | float _ => true
  | _ => false

def text? : Value → Option Text
  | text s => some s
  | _ => none

/-- Scalars, each once, in the order of their first occurrence. -/
def distinct : List Value → List Value
  | [] => []
  | v :: vs => v :: (distinct vs).filter fun w => ! v.sameKey w

/-- How the numbers of two lists stand when they are sorted and one of them is not a number. It is
neither below nor above any other, so where the others come to stand depends on the order in which
a set yields them, and that is not fixed: it changes with the place of a value in memory. All that
is known is that nothing is lost or added. -/
class Arrangement where
  arrange : List Value → List Value → List Value
  perm (xs ys : List Value) : (arrange xs ys).Perm (distinct (xs ++ ys))

/-- Numbers in ascending order, with what is not a number at a given place. -/
def sortAround (place : Int × Int × Nat) : List Value → List Value :=
  sortBy fun v w => numberLe (v.numberKey?.getD place) (w.numberKey?.getD place)

/-- Scalars in ascending order: texts among themselves, or numbers among themselves. If one of the
numbers has no place in the order, they stand as they are arranged. -/
def sortScalars (arranged vs : List Value) : Except Failure (List Value) :=
  if vs.length ≤ 1 then .ok vs
  else match vs.mapM text? with
    | some texts => .ok ((sortNames texts).map text)
    | none =>
      match vs.mapM fun v => (v, ·) <$> v.numberKey? with
      | some keyed => .ok ((sortBy (fun a b => numberLe a.2 b.2) keyed).map (·.1))
      | none => if vs.all isNumeric then .ok arranged else .error .wrongSort

section

variable [Arrangement]

/-- The sorted union of two lists of scalars. -/
def union (xs ys : List Value) : Except Failure (List Value) :=
  if (xs ++ ys).all isScalar then sortScalars (Arrangement.arrange xs ys) (distinct (xs ++ ys))
  else .error .wrongSort

/-! ### Merging -/

/-- Whether lists under a key are united. -/
def isAdditive (key : Value) : Bool := key.sameKey (text "external_packages")

mutual

/-- Merge the entries of an update into a base, one after the other. -/
def mergeEntries (base : List (Value × Value)) :
    List (Value × Value) → Except Failure (List (Value × Value))
  | [] => .ok base
  | (key, value) :: rest => do
    let merged ← mergeValue key (find? key base) value
    mergeEntries (put key merged base) rest

/-- The value under a key that has a value in the update, and perhaps an old one in the base. -/
def mergeValue (key : Value) (old : Option Value) : Value → Except Failure Value
  | map es =>
    match old with
    | some (map os) => map <$> mergeEntries os es
    | _ => .ok (map es)
  | list ys =>
    match old with
    | some (list xs) => if isAdditive key then list <$> union xs ys else .ok (list ys)
    | _ => .ok (list ys)
  | v => .ok v

end

/-- Merge an update, which has to be a mapping, into the entries of a base. -/
def deepMerge (base : List (Value × Value)) (update : Value) :
    Except Failure (List (Value × Value)) :=
  match update with
  | map es => mergeEntries base es
  | _ => .error .noMapping

end

/-- One of the arrangements, and the one that the program is run with: what is not a number stands
where zero does. -/
instance Arrangement.asZero : Arrangement where
  arrange xs ys := sortAround (0, 0, 1) (distinct (xs ++ ys))
  perm _ _ := sortBy_perm _ _

end ApiDocs.Value
