import ApiDocs.Text.Split
import ApiDocs.Value.Text

/-!
# Failures

Why a documentation run stops. A failure that names what is wrong with the input carries a message;
the others say only of which sort the fault is.
-/

namespace ApiDocs

/-- What is wrong with a declaration. -/
inductive Flaw where
  | unknownKind (kind : Text)
  | unnamed (kind : Text)
  | memberOutsideType (scope : Text)
  | typeOutsidePackage (scope : Text)
  | cyclicNesting
  deriving DecidableEq, Repr

/-- What is wrong with a path, or with what stands there. -/
inductive FileFault where
  /-- There is nothing at the path. -/
  | missing
  /-- A directory stands where a file is to be read or written. -/
  | isDirectory
  /-- A file stands where a directory is to be made. -/
  | placeTaken
  /-- A file stands on the way. -/
  | wayBlocked
  /-- A name, or the whole path, is too long. -/
  | tooLong
  /-- No path holds the code point zero. -/
  | noPath
  /-- A surrogate that stands alone cannot be written. -/
  | unwritable
  deriving DecidableEq, Repr

/-- Why a documentation run stops. -/
inductive Failure where
  /-- A declaration has a flaw. -/
  | malformed (name : Text) (flaw : Flaw)
  /-- Two declarations have one qualified name. -/
  | duplicate (name : Text)
  /-- A setting is none of the choices. -/
  | unknownChoice (setting : Text) (given : Value) (choices : List Text)
  /-- Parameter names and parameter types are not equally many. -/
  | unpairedParameters
  /-- A value is of a sort that the operation does not take. -/
  | wrongSort
  /-- A mapping is expected, or an entity, and there is none. -/
  | noMapping
  /-- An entry that is looked up is not there. -/
  | noEntry
  /-- A data document breaks the rules of its notation. -/
  | badDocument
  /-- A number in a data document has no digits. -/
  | noDigits (base : Nat)
  /-- A number in a data document has more digits than are read. -/
  | tooManyDigits (count : Nat)
  /-- A number has more digits than are written. -/
  | tooLongToWrite
  /-- An escape in a data document stands for no code point. -/
  | noCodePoint
  /-- A number in a data document is too large to be computed with. -/
  | tooLarge
  /-- The parts of a data document are nested too deeply. -/
  | tooDeep
  /-- No output directory is named. -/
  | noDirectory
  /-- Something is wrong with a path, or with what stands there. -/
  | file (fault : FileFault)
  deriving Repr

/-- What is wrong with a declaration, in words. -/
def Flaw.message : Flaw → Text
  | unknownKind kind => "unknown kind " ++ Text.quoted kind
  | unnamed kind => kind ++ " without a name"
  | memberOutsideType scope => "enclosing type " ++ Text.quoted scope ++ " cannot be identified"
  | typeOutsidePackage scope =>
    "enclosing scope " ++ Text.quoted scope ++ " is neither a package nor a type"
  | cyclicNesting => "cyclic nesting of enclosing types"

/-- The choices of a setting, quoted and in parentheses. -/
def choiceList (choices : List Text) : Text :=
  "(" ++ Text.joinWith ", " (choices.map Text.quoted) ++ ")"

/-- The message about a number with too many digits; the argument stands where their count may be
told. -/
def limitMessage (count : Text) : Text :=
  "Exceeds the limit (" ++ Text.natural Text.digitLimit ++
    " digits) for integer string conversion" ++ count ++
    "; use sys.set_int_max_str_digits() to increase the limit"

def Failure.message? : Failure → Option Text
  | malformed name flaw =>
    some ("Malformed declaration " ++ Text.quoted name ++ ": " ++ flaw.message)
  | duplicate name => some ("Duplicate declaration: " ++ name)
  | unknownChoice setting given choices =>
    some ("Unknown " ++ setting ++ " " ++ given.quoted ++ "; expected one of " ++
      choiceList choices)
  | noDigits base =>
    some ("invalid literal for int() with base " ++ Text.natural base ++ ": ''")
  | tooManyDigits count => some (limitMessage (": value has " ++ Text.natural count ++ " digits"))
  | tooLongToWrite => some (limitMessage [])
  | noCodePoint => some "chr() arg not in range(0x110000)"
  | _ => none

def Value.checkWritable (vs : List Value) : Except Failure Unit :=
  if vs.all isWritable then .ok () else .error .tooLongToWrite

end ApiDocs
