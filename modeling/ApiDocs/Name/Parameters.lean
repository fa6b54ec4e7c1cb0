import ApiDocs.Name.Qualified

/-!
# Parameter lists

A written parameter list is split at the commas outside angle brackets. Of each parameter the type
is kept: the last word is its name unless it is the only one or ends like a type. Two parameter
lists match if their types agree up to the packages and type arguments, with equal array markers.
-/

namespace ApiDocs.Name

open Text

/-- Cut at the commas outside angle brackets, `depth` of which are open. -/
def splitTopLevel (depth : Int) : Text → List Text
  | [] => [[]]
  | c :: cs =>
    let depth := if c = '<' then depth + 1 else if c = '>' then depth - 1 else depth
    if c = ',' && depth = 0 then [] :: splitTopLevel depth cs
    else match splitTopLevel depth cs with
      | [] => [[c]]
      | w :: ws => (c :: w) :: ws

/-- The parameters of a written list, trimmed, empty ones left out. -/
def splitParameters (cs : Text) : List Text :=
  ((splitTopLevel 0 cs).map trim).filter (! ·.isEmpty)

/-- Whether a word ends like a type, so that it cannot be the name of a parameter. -/
def endsLikeType (w : Text) : Bool :=
  ([">", "]", "..."] : List Text).any (·.isSuffixOf w)

/-- The type of a written parameter, without white space. -/
def parameterType (cs : Text) : Text :=
  let ws := words cs
  match ws.getLast? with
  | some last => if 1 < ws.length && ! endsLikeType last then ws.dropLast.flatten else ws.flatten
  | none => []

/-- Whether a code point belongs to an array marker or to the marker of a variable arity. -/
def isMarkerChar (c : CodePoint) : Bool := c = '[' || c = ']' || c = '.'

/-- The array and variable arity markers at the end of a type. -/
def markers (type : Text) : Text := takeRightWhile isMarkerChar (afterLast '>' (normalize type))

/-- Whether a declared and a referenced parameter type agree. -/
def typesAgree (declared referenced : Text) : Bool :=
  simple (normalize declared) = simple (normalize referenced) &&
    markers declared = markers referenced

def parametersMatch : List Text → List Text → Bool
  | [], [] => true
  | d :: ds, r :: rs => typesAgree d r && parametersMatch ds rs
  | _, _ => false

end ApiDocs.Name
