import ApiDocs.Text.Split

/-!
# Qualified names

Packages and types have dotted names. The name of a member is the name of its type, a number sign,
and its simple name; constructors and methods carry their parameter types, so overloads stay
distinct.
-/

namespace ApiDocs.Name

open Text

/-- The name of a type declared in a package or in an enclosing type. -/
def ofType (scope name : Text) : Text := if scope = [] then name else scope ++ "." ++ name

/-- A parameter type without its white space. -/
def normalize (type : Text) : Text := withoutBlanks type

def ofField (type name : Text) : Text := type ++ "#" ++ name

/-- The name of a constructor or method with its parameter types. -/
def ofCallable (type name : Text) (parameters : List Text) : Text :=
  ofField type name ++ "(" ++ joinWith "," (parameters.map normalize) ++ ")"

/-- The name of a member, with its parameter types if it has a parameter list. -/
def ofMember (type name : Text) (parameters : Option (List Text)) : Text :=
  match parameters with
  | none => ofField type name
  | some ps => ofCallable type name ps

/-- The last dotted segment of a name, type arguments left out. -/
def simple (name : Text) : Text := afterLast '.' (name.takeWhile (· != '<'))

end ApiDocs.Name
