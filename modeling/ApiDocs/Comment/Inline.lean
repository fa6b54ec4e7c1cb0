import ApiDocs.Comment.Scan
import ApiDocs.Text.Split
import ApiDocs.Text.Word

/-!
# Inline tags

An inline tag is `{@name}` or `{@name content}`; its content holds no brace. A link is an inline
tag named `link` or `linkplain` whose content starts with a target: a run of code points other than
white space, braces and opening parentheses, with a parenthesised part after it if that can be
closed. The rest of the content is the label.
-/

namespace ApiDocs.Comment

open Text

/-- An inline tag and its trimmed content. -/
structure InlineTag where
  name : Text
  content : Text
  deriving DecidableEq, Repr

/-- The target and the trimmed label of an inline link. -/
structure InlineLink where
  target : Text
  label : Text
  deriving DecidableEq, Repr

/-- The text up to a closing brace, with no opening brace in between, and the text after it. -/
def untilClose : Recogniser Text
  | [] => none
  | c :: cs =>
    if c = '}' then some ([], cs)
    else if c = '{' then none
    else (untilClose cs).map fun r => (c :: r.1, r.2)

/-- A part from an opening parenthesis to the next closing one. -/
def parenthesised : Recogniser Text
  | .char '(' :: cs =>
    match cutAt ')' cs with
    | (inside, some rest) => some ("(" ++ inside ++ ")", rest)
    | (_, none) => none
  | _ => none

def tagOpening : Text := "\x7b@"

/-- An inline tag at the start of a text. -/
def inlineTag : Recogniser InlineTag := fun cs =>
  (tagOpening.isPrefixOf? cs).bind fun after =>
    let name := after.takeWhile isWord
    if name.isEmpty then none
    else match after.dropWhile isWord with
      | .char '}' :: rest => some (⟨name, []⟩, rest)
      | c :: rest =>
        if isBlank c then (untilClose (trimLeft rest)).map fun r => (⟨name, trim r.1⟩, r.2)
        else none
      | [] => none

/-- Whether a code point may stand in the target of a link before its parenthesised part. -/
def isTargetChar (c : CodePoint) : Bool := ! isBlank c && c != '{' && c != '}' && c != '('

/-- What follows the name of a link tag. -/
def linkContent : Recogniser InlineLink := fun cs =>
  let target := cs.takeWhile isTargetChar
  let after := cs.dropWhile isTargetChar
  if target.isEmpty then none
  else
    let closed := (parenthesised after).bind fun p =>
      (untilClose p.2).map fun r => (⟨target ++ p.1, trim r.1⟩, r.2)
    closed.or ((untilClose after).map fun r => (⟨target, trim r.1⟩, r.2))

/-- The text after the name of a link tag and white space. -/
def afterLinkName (name cs : Text) : Option Text :=
  match name.isPrefixOf? cs with
  | some (c :: rest) => if isBlank c then some (trimLeft rest) else none
  | _ => none

def inlineLink : Recogniser InlineLink := fun cs =>
  (tagOpening.isPrefixOf? cs).bind fun after =>
    ((afterLinkName "link" after).or (afterLinkName "linkplain" after)).bind linkContent

def inlineLinks (cs : Text) : List InlineLink := allMatches inlineLink cs

/-- How many inline links a text has. -/
def linkCount (cs : Text) : Nat := (inlineLinks cs).length

end ApiDocs.Comment
