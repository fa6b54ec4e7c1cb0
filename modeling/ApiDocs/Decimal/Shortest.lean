import ApiDocs.Decimal.Binary64
import ApiDocs.Text.Blank
import ApiDocs.Text.Digits

/-!
# The shortest decimal text of a binary number

The text has the fewest digits that read back as the number, and of those the nearest to it.
Positional notation is used from `10 ^ -4` up to below `10 ^ 16`, with at least one digit after the
point; outside, an exponent of at least two digits follows.
-/

namespace ApiDocs.Decimal

open Text

/-- The decimals that round to a number: the ends of the interval and whether they belong to it. -/
structure Interval where
  low : Nat × Nat
  value : Nat × Nat
  high : Nat × Nat
  closed : Bool

/-- The interval of a positive number. -/
def Interval.of (m : Nat) (e : Int) : Interval where
  low := scale 2 (e - 2) (if m = Nat.pow 2 52 && -1074 < e then 4 * m - 1 else 4 * m - 2, 1)
  value := scale 2 (e - 2) (4 * m, 1)
  high := scale 2 (e - 2) (4 * m + 2, 1)
  closed := m % 2 = 0

def ratioLt (x y : Nat × Nat) : Bool := x.1 * y.2 < y.1 * x.2

/-- Whether a ratio rounds to the number. -/
def Interval.holds (i : Interval) (x : Nat × Nat) : Bool :=
  if i.closed then ! ratioLt x i.low && ! ratioLt i.high x
  else ratioLt i.low x && ratioLt x i.high

/-- The least `k` such that the ratio is below `10 ^ k`. -/
def decimalPoint (x : Nat × Nat) : Int :=
  let guess := ((x.1.log2 : Int) - x.2.log2) * 1233 / 4096
  ([guess - 1, guess, guess + 1, guess + 2].find? fun k =>
    ratioLt x (scale 10 k (1, 1))).getD (guess + 3)

/-- The digits that read back on the grid of step `10 ^ step`, if any do. -/
def onGrid? (i : Interval) (step : Int) : Option Nat :=
  let scaled := scale 10 (-step) i.value
  let a := scaled.1 / scaled.2
  let at_ (n : Nat) : Nat × Nat := scale 10 step (n, 1)
  let nearLow := 2 * (scaled.1 % scaled.2)
  match i.holds (at_ a), i.holds (at_ (a + 1)) with
  | true, false => some a
  | false, true => some (a + 1)
  | true, true =>
    if nearLow < scaled.2 || (nearLow = scaled.2 && a % 2 = 0) then some a else some (a + 1)
  | false, false => none

/-- The first grid with a hit, from `count` digits on; `left` more grids are tried. -/
def firstGrid (i : Interval) (point : Int) (count : Nat) : Nat → Nat × Int
  | 0 => (0, point)
  | left + 1 =>
    match onGrid? i (point - count) with
    | some n => (n, point - count)
    | none => firstGrid i point (count + 1) left

/-- The shortest digits `ds` and the place `p` such that `0.ds * 10 ^ p` reads back. -/
def shortestDigits (m : Nat) (e : Int) : Text × Int :=
  let i := Interval.of m e
  let (n, step) := firstGrid i (decimalPoint i.value) 1 17
  let ds := natural n
  (dropRightWhile (· == '0') ds, step + ds.length)

/-- Digits with the point at place `p`. -/
def placePoint (ds : Text) (p : Int) : Text :=
  if p ≤ 0 then "0." ++ Text.replicate (-p).toNat '0' ++ ds
  else if ds.length ≤ p.toNat then ds ++ Text.replicate (p.toNat - ds.length) '0' ++ ".0"
  else ds.take p.toNat ++ "." ++ ds.drop p.toNat

/-- Digits with an exponent. -/
def withExponent (ds : Text) (p : Int) : Text :=
  let fraction : Text := if ds.length ≤ 1 then [] else "." ++ ds.drop 1
  let e := p - 1
  ds.take 1 ++ fraction ++ (if e < 0 then "e-" else "e+") ++ padZeros 2 (natural e.natAbs)

/-- The shortest text of a number. -/
def Binary64.text : Binary64 → Text
  | .nan => "nan"
  | .infinite s => if s then "-inf" else "inf"
  | .finite s m e =>
    let (ds, p) := shortestDigits m e
    let magnitude : Text :=
      if m = 0 then "0.0"
      else if -4 < p && p ≤ 16 then placePoint ds p
      else withExponent ds p
    if s then "-" ++ magnitude else magnitude

end ApiDocs.Decimal
