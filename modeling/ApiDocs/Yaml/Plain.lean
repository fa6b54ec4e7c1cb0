import ApiDocs.Failure

/-!
# The values of plain scalars

A plain scalar is null, a truth value or a number if it has the form of one, and a text otherwise.
Underscores in numbers do not count, and a number may be written in base sixty with colons. A text
that has the form of a number need not stand for one: there may be no digits in it, or too many.
-/

namespace ApiDocs.Yaml

open Decimal Text

def nullWords : List Text := ["", "~", "null", "Null", "NULL"]

def trueWords : List Text := ["yes", "Yes", "YES", "true", "True", "TRUE", "on", "On", "ON"]

def falseWords : List Text := ["no", "No", "NO", "false", "False", "FALSE", "off", "Off", "OFF"]

/-- The spellings of infinity, without a sign. -/
def infinityWords : List Text := [".inf", ".Inf", ".INF"]

def nanWords : List Text := [".nan", ".NaN", ".NAN"]

/-! ### Integers -/

/-- Whether a number is negative, and its text without the sign. -/
def splitSign : Text → Bool × Text
  | .char '-' :: cs => (true, cs)
  | .char '+' :: cs => (false, cs)
  | cs => (false, cs)

/-- Whether a code point is a digit of a base or an underscore. -/
def isDigitMark (base : Nat) (c : CodePoint) : Bool := c = '_' || (digitValue? base c).isSome

def areDigitMarks (base : Nat) (cs : Text) : Bool := ! cs.isEmpty && cs.all (isDigitMark base)

/-- Whether a text is a decimal digit with further digits and underscores. -/
def isDecimal (cs : Text) : Bool := cs.head?.any isDigit && cs.all (isDigitMark 10)

def digitsOf (cs : Text) : Text := cs.filter (· != '_')

/-- The number that digits and underscores stand for. Only decimal digits are limited in number. -/
def number (base : Nat) (cs : Text) : Except Failure Nat :=
  let ds := digitsOf cs
  if ds.isEmpty then .error (.noDigits base)
  else if base = 10 && digitLimit < ds.length then .error (.tooManyDigits ds.length)
  else .ok (ofDigits base ds)

/-- Whether a text is one or two digits below sixty. -/
def isSixtieth : Text → Bool
  | [d] => isDigit d
  | [t, d] => (digitValue? 6 t).isSome && isDigit d
  | _ => false

/-- Whether parts are the parts of a number in base sixty. -/
def isBaseSixty : List Text → Bool
  | first :: rest => isDecimal first && ! rest.isEmpty && rest.all isSixtieth
  | [] => false

/-- A number in base sixty from its parts, the most significant first. -/
def baseSixty (parts : List Text) : Except Failure Nat :=
  parts.foldlM (fun n p => (n * 60 + ·) <$> number 10 p) 0

/-- What a text without a sign stands for, if it has the form of a natural number. -/
def natural? (cs : Text) : Option (Except Failure Nat) :=
  let parts := splitWhere (· == ':') cs
  match cs with
  | [.char '0'] => some (.ok 0)
  | .char '0' :: .char 'b' :: ds => if areDigitMarks 2 ds then some (number 2 ds) else none
  | .char '0' :: .char 'x' :: ds => if areDigitMarks 16 ds then some (number 16 ds) else none
  | .char '0' :: ds => if areDigitMarks 8 ds then some (number 8 cs) else none
  | _ =>
    if isDecimal cs then some (number 10 cs)
    else if isBaseSixty parts then some (baseSixty parts)
    else none

/-! ### Floating point numbers -/

/-- The exponent of a floating point number: nothing, or a sign and digits after a letter. -/
def exponent? : Text → Option Int
  | [] => some 0
  | e :: sign :: ds =>
    if (e = 'e' || e = 'E') && (sign = '+' || sign = '-') && ! ds.isEmpty && ds.all isDigit then
      some (if sign = '-' then -(ofDigits 10 ds : Int) else ofDigits 10 ds)
    else none
  | _ => none

/-- The number whose digits stand before and after the point. -/
def pointed (whole fraction : Text) (exponent : Int) : Binary64 :=
  let ds := digitsOf fraction
  .ofDecimal false (ofDigits 10 (digitsOf whole ++ ds)) (exponent - ds.length)

/-- Add parts in base sixty, the least significant first, to a sum; the first part counts `unit`
times. Every product and every sum is rounded. -/
def addSixtieths (sum : Binary64) (unit : Nat) : List Binary64 → Except Failure Binary64
  | [] => .ok sum
  | x :: xs =>
    match Binary64.ofInt unit with
    | .infinite _ => .error .tooLarge
    | u => addSixtieths (sum.add (x.mul u)) (unit * 60) xs

/-- The number in base sixty whose parts stand before the point. -/
def pointedSixty (parts : List Text) (fraction : Text) : Except Failure Binary64 :=
  let last := pointed (parts.getLast?.getD []) fraction 0
  addSixtieths (.zero false) 1 (last :: (parts.dropLast.reverse.map fun p => pointed p [] 0))

/-- What a text without a sign stands for, if it has the form of a floating point number. There has
to be a point in it. -/
def float? (signed : Bool) (cs : Text) : Option (Except Failure Binary64) :=
  match cutAt '.' cs with
  | (_, none) => none
  | (whole, some after) =>
    let fraction := after.takeWhile (isDigitMark 10)
    let tail := after.dropWhile (isDigitMark 10)
    let parts := splitWhere (· == ':') whole
    if cs ∈ infinityWords then some (.ok (.infinite false))
    else if cs ∈ nanWords && ! signed then some (.ok .nan)
    else if whole.isEmpty then
      if ! signed && fraction.head?.any isDigit then
        (exponent? tail).map fun e => .ok (pointed [] fraction e)
      else none
    else if isDecimal whole then (exponent? tail).map fun e => .ok (pointed whole fraction e)
    else if isBaseSixty parts && tail.isEmpty then some (pointedSixty parts fraction)
    else none

/-! ### Values -/

/-- What a plain scalar stands for, if it has the form of a number. -/
def plainNumber? (cs : Text) : Option (Except Failure Value) :=
  let (negative, body) := splitSign cs
  match natural? body with
  | some n => some (n.map fun n => .int (if negative then -n else n))
  | none =>
    (float? (body.length < cs.length) body).map fun x =>
      x.map fun x => .float (if negative then x.neg else x)

/-- The value of a plain scalar. Two forms are reserved. -/
def plainValue (cs : Text) : Except Failure Value :=
  if cs ∈ nullWords then .ok .null
  else if cs ∈ trueWords then .ok (.bool true)
  else if cs ∈ falseWords then .ok (.bool false)
  else if cs = "=" || cs = "<<" then .error .badDocument
  else (plainNumber? cs).getD (.ok (.text cs))

end ApiDocs.Yaml
