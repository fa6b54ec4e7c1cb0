import ApiDocs.Name.Parameters

/-!
# References to members

The text of a reference is taken apart into a type, a member and a parameter list. The type is what
stands before the first number sign; a parameter list is there if the member part has an opening
parenthesis and ends with a closing one.
-/

namespace ApiDocs.Name

open Text

/-- The parts of a reference. -/
structure MemberReference where
  type : Text
  member : Text
  parameters : Option (List Text)
  deriving DecidableEq, Repr

/-- Take a member part apart into the name and the parameter list. -/
def splitMember (cs : Text) : Text × Option (List Text) :=
  if cs.contains '(' && cs.getLast? = some (.char ')') then
    let (name, inside) := cutAt '(' cs.dropLast
    (name, some ((splitParameters (inside.getD [])).map parameterType))
  else (cs, none)

/-- Take the text of a reference apart. -/
def MemberReference.ofText (s : Text) : MemberReference :=
  let (type, member) :=
    match cutAt '#' s with
    | (_, none) => ([], s)
    | (type, some member) => (type, member)
  let (name, parameters) := splitMember member
  ⟨trim type, trim name, parameters⟩

end ApiDocs.Name
