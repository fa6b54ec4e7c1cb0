import ApiDocs.Text.Split

/-!
# Lines

A line ends at any of the vertical separators: line feed, carriage return (together with a line
feed after it), line tabulation, form feed, the file, group and record separators, next line, and
the line and paragraph separators. A separator at the end of a text opens no further line.
-/

namespace ApiDocs.Text

def isLineEnd (c : CodePoint) : Bool :=
  let n := c.toNat
  (10 ≤ n && n ≤ 13) || (28 ≤ n && n ≤ 30) || n == 0x85 || n == 0x2028 || n == 0x2029

def lines : Text → List Text
  | [] => []
  | .char '\r' :: .char '\n' :: cs => [] :: lines cs
  | c :: cs =>
    if isLineEnd c then [] :: lines cs
    else match lines cs with
      | [] => [[c]]
      | w :: ws => (c :: w) :: ws

/-- Turn every carriage return, with the line feed after it if there is one, into a line feed. -/
def unifyLineEnds : Text → Text
  | [] => []
  | .char '\r' :: .char '\n' :: cs => '\n' :: unifyLineEnds cs
  | c :: cs => (if c = '\r' then '\n' else c) :: unifyLineEnds cs

/-- The text without its first line if that line starts with `mark`. The lines that are left are
joined by line feeds, and line feeds at the start are dropped. -/
def dropMarkedLine (mark cs : Text) : Text :=
  match lines cs with
  | [] => cs
  | first :: rest =>
    if mark.isPrefixOf first then (joinWith "\n" rest).dropWhile (· == '\n') else cs

end ApiDocs.Text
