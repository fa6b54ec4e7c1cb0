import ApiDocs.Text.Split
import ApiDocs.Value.Text

/-!
# Comment text

A comment may carry a margin of asterisks. At the start of a line, white space with an asterisk
after it is a margin, with one space after the asterisk if there is one; an asterisk before a slash
is none. The white space of a margin may run over line feeds, so blank lines before a margin go
with it. Margins are dropped where the first character of the comment, white space aside, is an
asterisk.
-/

namespace ApiDocs.Comment

open Text

/-- How many code points the margin at the start of a line has, if there is one. -/
def marginLength? (cs : Text) : Option Nat :=
  match cs.dropWhile isBlank with
  | .char '*' :: .char '/' :: _ => none
  | .char '*' :: .char ' ' :: _ => some ((cs.takeWhile isBlank).length + 2)
  | .char '*' :: _ => some ((cs.takeWhile isBlank).length + 1)
  | _ => none

/-- Drop margins from a text whose first `skip` code points belong to a margin. The flag says
whether the text begins a line. -/
def dropMarginsFrom : Nat → Bool → Text → Text
  | _, _, [] => []
  | skip + 1, _, _ :: cs => dropMarginsFrom skip false cs
  | 0, false, c :: cs => c :: dropMarginsFrom 0 (c = '\n') cs
  | 0, true, c :: cs =>
    match marginLength? (c :: cs) with
    | some n => dropMarginsFrom (n - 1) false cs
    | none => c :: dropMarginsFrom 0 (c = '\n') cs

def dropMargins (cs : Text) : Text := dropMarginsFrom 0 true cs

/-- A comment without its margins and the white space at its ends. -/
def plainText (cs : Text) : Text :=
  trim (if (trimLeft cs).head? = some (.char '*') then dropMargins cs else cs)

mutual

/-- The comment text of a value; the items of a list that have a text are put on lines of their
own. -/
def asText : Value → Text
  | .null => []
  | .list items => joinWith "\n" (textsOf items)
  | v => plainText v.toText

/-- The comment texts of values, empty ones left out. -/
def textsOf : List Value → List Text
  | [] => []
  | v :: vs => if (asText v).isEmpty then textsOf vs else asText v :: textsOf vs

end

end ApiDocs.Comment
