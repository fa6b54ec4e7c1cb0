import ApiDocs.Text.Digits
import ApiDocs.Text.Printable

/-!
# Quoted text

A text is quoted with apostrophes, or with quotation marks if it holds an apostrophe and no
quotation mark. The quote and the backslash are escaped, line feed, carriage return and tabulation
have short escapes, and every other code point that is not printable is written by its number.
-/

namespace ApiDocs.Text

def quoteFor (t : Text) : CodePoint := if t.contains '\'' && ! t.contains '"' then '"' else '\''

/-- A code point as it stands between quotes. -/
def quotedPoint (quote c : CodePoint) : Text :=
  if c = quote || c = '\\' then ['\\', c]
  else if c = '\n' then "\\n"
  else if c = '\r' then "\\r"
  else if c = '\t' then "\\t"
  else if isPrintable c then [c]
  else if c.toNat < 0x100 then "\\x" ++ hex 2 c.toNat
  else if c.toNat < 0x10000 then "\\u" ++ hex 4 c.toNat
  else "\\U" ++ hex 8 c.toNat

def quoted (t : Text) : Text :=
  let q := quoteFor t
  [q] ++ t.flatMap (quotedPoint q) ++ [q]

end ApiDocs.Text
