import ApiDocs.Comment.Inline

/-!
# The first sentence of a comment

The summary of a comment ends after the first period that stands before white space or at the end,
or before the first block tag of HTML, whichever comes first. Periods and tags inside inline tags do
not count.
-/

namespace ApiDocs.Comment

open Text

/-- The text with every code point of an inline tag replaced by a letter. -/
def maskTags (cs : Text) : Text :=
  (scan inlineTag cs).flatMap fun
    | .point c => [c]
    | .hit _ covered => covered.map fun _ => .char 'x'

/-- The length of the text up to and with the first period that ends a sentence. -/
def sentenceEnd? : Text → Option Nat
  | [] => none
  | c :: cs =>
    if c = '.' && cs.head?.all isBlank then some 1 else (sentenceEnd? cs).map (· + 1)

/-- The names of the HTML tags that open a block. -/
def blockNames : List Text :=
  ["p", "pre", "h1", "h2", "h3", "h4", "h5", "h6", "ul", "ol", "dl", "table", "hr",
    "blockquote"]

/-- The letter of a tag name that a code point matches when case is ignored; the Kelvin sign matches
`k`. -/
def tagLetter : CodePoint → CodePoint
  | .char c => if c = '\u212a' then 'k' else c.toLower
  | .surrogate k => .surrogate k

/-- Whether a text starts with an HTML tag that opens a block. -/
def startsBlock : Text → Bool
  | .char '<' :: cs => blockNames.contains ((cs.takeWhile isWord).map tagLetter)
  | _ => false

/-- How many code points stand before the first block tag. -/
def blockStart? : Text → Option Nat
  | [] => none
  | c :: cs => if startsBlock (c :: cs) then some 0 else (blockStart? cs).map (· + 1)

/-- The length of the summary of a trimmed comment. -/
def summaryLength (cs : Text) : Nat :=
  let masked := maskTags cs
  let sentence := (sentenceEnd? masked).getD cs.length
  match blockStart? masked with
  | some n => min n sentence
  | none => sentence

/-- The summary of a comment and its remaining body. -/
def splitFirstSentence (comment : Text) : Text × Text :=
  let cs := trim comment
  let n := summaryLength cs
  (trim (cs.take n), trim (cs.drop n))

end ApiDocs.Comment
