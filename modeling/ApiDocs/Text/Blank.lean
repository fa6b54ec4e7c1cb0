import ApiDocs.Text

/-!
# White space and trimming

White space is the Unicode property, the information separators U+001C to U+001F included.
-/

namespace ApiDocs.Text

def isBlank (c : CodePoint) : Bool :=
  let n := c.toNat
  (9 ≤ n && n ≤ 13) || (28 ≤ n && n ≤ 32) || n == 0x85 || n == 0xA0 || n == 0x1680 ||
    (0x2000 ≤ n && n ≤ 0x200A) || n == 0x2028 || n == 0x2029 || n == 0x202F || n == 0x205F ||
    n == 0x3000

/-- Drop the longest end of a text whose code points all satisfy `p`. -/
def dropRightWhile (p : CodePoint → Bool) (t : Text) : Text := (t.reverse.dropWhile p).reverse

/-- The longest end of a text whose code points all satisfy `p`. -/
def takeRightWhile (p : CodePoint → Bool) (t : Text) : Text := (t.reverse.takeWhile p).reverse

/-- Drop white space at the start. -/
def trimLeft (t : Text) : Text := t.dropWhile isBlank

/-- Drop white space at the end. -/
def trimRight (t : Text) : Text := dropRightWhile isBlank t

/-- Drop white space at both ends. -/
def trim (t : Text) : Text := trimRight (trimLeft t)

theorem dropRightWhile_append_takeRightWhile (p : CodePoint → Bool) (t : Text) :
    dropRightWhile p t ++ takeRightWhile p t = t := by
  rw [dropRightWhile, takeRightWhile, ← List.reverse_append, List.takeWhile_append_dropWhile,
    List.reverse_reverse]

end ApiDocs.Text
