import ApiDocs.Text

/-!
# Digits

Numbers in positional notation, least width included.
-/

namespace ApiDocs.Text

def natural (n : Nat) : Text := ofChars (Nat.toDigits 10 n)

/-- The decimal digits of an integer, after a minus sign if it is negative. -/
def integer (i : Int) : Text :=
  if i < 0 then "-" ++ natural i.natAbs else natural i.natAbs

/-- Fill up with zeros on the left. -/
def padZeros (width : Nat) (ds : Text) : Text := replicate (width - ds.length) '0' ++ ds

/-- How many decimal digits an integer may have that is read or written. -/
def digitLimit : Nat := 4300

/-- The lower-case hexadecimal digits of a natural number, at least `width` of them. -/
def hex (width n : Nat) : Text := padZeros width (ofChars (Nat.toDigits 16 n))

/-- The value of a digit in a base up to sixteen. -/
def digitValue? (base : Nat) (c : CodePoint) : Option Nat :=
  let n := c.toNat
  let v :=
    if '0'.toNat ≤ n && n ≤ '9'.toNat then some (n - '0'.toNat)
    else if 'a'.toNat ≤ n && n ≤ 'f'.toNat then some (n - 'a'.toNat + 10)
    else if 'A'.toNat ≤ n && n ≤ 'F'.toNat then some (n - 'A'.toNat + 10)
    else none
  v.filter (· < base)

def isDigit (c : CodePoint) : Bool := c.is Char.isDigit

/-- The number that digits stand for, the most significant first. -/
def ofDigits (base : Nat) (ds : Text) : Nat :=
  ds.foldl (fun n c => n * base + (digitValue? base c).getD 0) 0

end ApiDocs.Text
