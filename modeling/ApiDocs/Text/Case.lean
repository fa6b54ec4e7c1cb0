import ApiDocs.Text
import ApiDocs.Text.CaseTable

/-!
# Letter case

Lower-casing follows the full Unicode map: the dotted capital I becomes two code points, and a
capital sigma at the end of a word becomes the final form. Capitalising puts the first character
in title case and the rest in lower case.
-/

namespace ApiDocs.Text

/-- Whether a code point has letter case. -/
def isCased (c : CodePoint) : Bool := inRanges c.toNat casedRanges

/-- Whether a code point is skipped when the end of a cased word is looked for. -/
def isCaseIgnorable (c : CodePoint) : Bool := inRanges c.toNat caseIgnorableRanges

/-- The image of a code point under a map of characters; surrogates stay. -/
def mapPoint (f : Char → List Char) : CodePoint → Text
  | .char c => ofChars (f c)
  | .surrogate k => [.surrogate k]

/-! ### Lower case -/

/-- The lower-case form of a character outside any context. -/
def lowerChar (c : Char) : List Char :=
  if c.toNat < 128 then [c.toLower]
  else if c.toNat = 0x130 then ['i', '\u0307']
  else [Char.ofNat (shiftCase c.toNat lowerRuns)]

/-- Whether the next code point that is not skipped has letter case. -/
def startsCased (t : Text) : Bool :=
  match t.dropWhile isCaseIgnorable with
  | [] => false
  | c :: _ => isCased c

/-- Lower-case a text; what stands before it is given in reverse. -/
def lowerFrom (before : Text) : Text → Text
  | [] => []
  | c :: t =>
    let image : Text :=
      if c = 'Σ' then [if startsCased before && ! startsCased t then 'ς' else 'σ']
      else mapPoint lowerChar c
    image ++ lowerFrom (c :: before) t

def lower (t : Text) : Text := lowerFrom [] t

/-! ### Title case -/

/-- The title-case form of a character. -/
def titleChar (c : Char) : List Char :=
  if c.toNat < 128 then [c.toUpper]
  else match titleExpansions.lookup c.toNat with
    | some ns => ns.map Char.ofNat
    | none => [Char.ofNat (shiftCase c.toNat titleRuns)]

/-- The text with its first character in title case and the rest in lower case. -/
def capitalize : Text → Text
  | [] => []
  | c :: t => mapPoint titleChar c ++ lowerFrom [c] t

end ApiDocs.Text
