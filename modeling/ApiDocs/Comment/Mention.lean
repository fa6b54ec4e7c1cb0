import ApiDocs.Comment.Inline

/-!
# Mentions

A mention is the text by which a comment refers to an entity, with the label to show for it. An
inline link is a mention, and so is the text of a `see` tag that is neither quoted nor a piece of
HTML.
-/

namespace ApiDocs.Comment

open Text

/-- A text that refers to an entity, and the label to show for it. -/
structure Mention where
  text : Text
  label : Text := []
  deriving DecidableEq, Repr

/-- The mention of an inline link. -/
def InlineLink.mention (l : InlineLink) : Mention := ⟨l.target, l.label⟩

def mentions (s : Text) : List Mention := (inlineLinks s).map (·.mention)

/-- Whether a code point may stand in the target of a `see` tag before its parenthesised part. -/
def isSeeChar (c : CodePoint) : Bool := ! isBlank c && c != '('

def seeMention? (s : Text) : Option Mention :=
  let cs := trim s
  let target := cs.takeWhile isSeeChar
  let after := cs.dropWhile isSeeChar
  if target.isEmpty || target.head? = some (.char '"') || target.head? = some (.char '<') then none
  else match parenthesised after with
    | some (part, rest) => some ⟨target ++ part, trim rest⟩
    | none => some ⟨target, trim after⟩

end ApiDocs.Comment
