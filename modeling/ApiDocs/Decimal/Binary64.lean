/-!
# Binary floating point of 64 bits

A finite number is `± mantissa * 2 ^ exponent`, with a mantissa below `2 ^ 53` and the exponent at
least `-1074`; unless the exponent is the least one, the mantissa is at least `2 ^ 52`. A ratio is
rounded to the nearest such number, a tie to the even mantissa.
-/

namespace ApiDocs.Decimal

/-- A binary floating point number of 64 bits. -/
inductive Binary64 where
  | finite (negative : Bool) (mantissa : Nat) (exponent : Int)
  | infinite (negative : Bool)
  | nan
  deriving DecidableEq, Repr

/-- The quotient rounded to the nearest integer, a tie to the even one. -/
def roundDiv (num den : Nat) : Nat :=
  let q := num / den
  let r := 2 * (num % den)
  if r < den then q else if den < r then q + 1 else if q % 2 = 0 then q else q + 1

/-- Multiply a ratio by a power of `base`. -/
def scale (base : Nat) (e : Int) (r : Nat × Nat) : Nat × Nat :=
  if 0 ≤ e then (r.1 * Nat.pow base e.toNat, r.2) else (r.1, r.2 * Nat.pow base (-e).toNat)

namespace Binary64

def zero (negative : Bool) : Binary64 := .finite negative 0 (-1074)

/-- The nearest number to `num / den`. -/
def ofRatio (negative : Bool) (num den : Nat) : Binary64 :=
  if num = 0 then zero negative
  else
    let low : Int := max ((num.log2 : Int) - den.log2 - 53) (-1074)
    let below := scale 2 (-low) (num, den)
    let e := if below.1 / below.2 < Nat.pow 2 53 then low else low + 1
    let scaled := scale 2 (-e) (num, den)
    let m := roundDiv scaled.1 scaled.2
    let (m, e) := if m = Nat.pow 2 53 then (Nat.pow 2 52, e + 1) else (m, e)
    if 971 < e then .infinite negative else .finite negative m e

/-- The nearest number to `digits * 10 ^ exponent`. -/
def ofDecimal (negative : Bool) (digits : Nat) (exponent : Int) : Binary64 :=
  if digits = 0 then zero negative
  else if exponent + digits.log2 < -1200 then zero negative
  else if 400 < exponent then .infinite negative
  else
    let r := scale 10 exponent (digits, 1)
    ofRatio negative r.1 r.2

/-- The absolute value of a finite number as a ratio; zero for the others. -/
def ratio : Binary64 → Nat × Nat
  | .finite _ m e => scale 2 e (m, 1)
  | _ => (0, 1)

/-- Whether a finite number is zero, of either sign. -/
def isZero : Binary64 → Bool
  | .finite _ m _ => m = 0
  | _ => false

/-- A finite number as a signed numerator over a denominator. -/
def signedRatio : Binary64 → Int × Nat
  | .finite s m e =>
    let r := scale 2 e (m, 1)
    (if s then -(r.1 : Int) else r.1, r.2)
  | _ => (0, 1)

/-- Whether a number is below another; nothing is below or above what is not a number. -/
def lt : Binary64 → Binary64 → Bool
  | .nan, _ => false
  | _, .nan => false
  | .infinite s, .infinite t => s && ! t
  | .infinite s, .finite .. => s
  | .finite .., .infinite t => ! t
  | x@(.finite ..), y@(.finite ..) =>
    x.signedRatio.1 * y.signedRatio.2 < y.signedRatio.1 * x.signedRatio.2

/-- Whether two numbers have one value: zeros agree, and what is not a number agrees with itself
only. It agrees with itself because there is a single one in a document; two that were made apart
from one another would not agree. -/
def same (x y : Binary64) : Bool :=
  match x, y with
  | .nan, .nan => true
  | .nan, _ => false
  | _, .nan => false
  | _, _ => ! lt x y && ! lt y x

/-- The nearest number to an integer. -/
def ofInt (i : Int) : Binary64 := ofRatio (i < 0) i.natAbs 1

/-! ### Arithmetic -/

/-- The number with the other sign. -/
def neg : Binary64 → Binary64
  | finite s m e => finite (! s) m e
  | infinite s => infinite (! s)
  | nan => nan

/-- The nearest number to the sum of two numbers. A sum of zero is negative if both numbers are. -/
def add : Binary64 → Binary64 → Binary64
  | nan, _ => nan
  | _, nan => nan
  | infinite s, infinite t => if s = t then infinite s else nan
  | infinite s, finite .. => infinite s
  | finite .., infinite t => infinite t
  | x@(finite s ..), y@(finite t ..) =>
    let (a, b) := x.signedRatio
    let (c, d) := y.signedRatio
    let sum := a * d + c * b
    if sum = 0 then zero (s && t) else ofRatio (sum < 0) sum.natAbs (b * d)

/-- The nearest number to the product of two numbers. -/
def mul : Binary64 → Binary64 → Binary64
  | nan, _ => nan
  | _, nan => nan
  | infinite s, infinite t => infinite (s != t)
  | infinite s, y@(finite t ..) => if y.isZero then nan else infinite (s != t)
  | x@(finite s ..), infinite t => if x.isZero then nan else infinite (s != t)
  | x@(finite s ..), y@(finite t ..) =>
    ofRatio (s != t) (x.ratio.1 * y.ratio.1) (x.ratio.2 * y.ratio.2)

end Binary64

end ApiDocs.Decimal
