import ApiDocs.Text.Digits
import ApiDocs.Text.Split

/-!
# Data documents in JSON

A tree of values is written with two spaces of indentation for each level. Fields keep their order.
Quotation marks, backslashes and control characters are escaped; other code points may be written as
they are or, outside ASCII, by their UTF-16 units.
-/

namespace ApiDocs

/-- A tree of values. -/
inductive Json where
  | null
  | bool (b : Bool)
  | int (i : Int)
  | text (s : Text)
  | list (items : List Json)
  | object (fields : List (Text × Json))
  deriving Repr

abbrev Fields := List (Text × Json)

namespace Json

open Text

def unitEscape (n : Nat) : Text := "\\u" ++ hex 4 n

def pointEscape (c : CodePoint) : Text :=
  let n := c.toNat
  if n < 0x10000 then unitEscape n
  else unitEscape (0xD800 + (n - 0x10000) / 0x400) ++ unitEscape (0xDC00 + (n - 0x10000) % 0x400)

/-- A code point as it stands in a string; `ascii` says that everything outside printable ASCII is
escaped. -/
def stringPoint (ascii : Bool) (c : CodePoint) : Text :=
  if c = '"' || c = '\\' then ['\\', c]
  else if c = '\n' then "\\n"
  else if c = '\r' then "\\r"
  else if c = '\t' then "\\t"
  else if c = '\x08' then "\\b"
  else if c = '\x0c' then "\\f"
  else if c.toNat < 0x20 || (ascii && 0x7E < c.toNat) then pointEscape c
  else [c]

/-- A string in quotation marks. -/
def string (ascii : Bool) (s : Text) : Text := "\"" ++ s.flatMap (stringPoint ascii) ++ "\""

/-- A line feed and the indentation of a level. -/
def newLine (level : Nat) : Text := '\n' :: Text.replicate (2 * level) ' '

mutual

/-- A value written at a level of indentation. -/
def write (ascii : Bool) (level : Nat) : Json → Text
  | null => "null"
  | bool b => if b then "true" else "false"
  | int i => integer i
  | text s => string ascii s
  | list [] => "[]"
  | list items => "[" ++ writeItems ascii (level + 1) items ++ newLine level ++ "]"
  | object [] => "\x7b\x7d"
  | object fields => "\x7b" ++ writeFields ascii (level + 1) fields ++ newLine level ++ "\x7d"

def writeItems (ascii : Bool) (level : Nat) : List Json → Text
  | [] => []
  | [v] => newLine level ++ v.write ascii level
  | v :: vs => newLine level ++ v.write ascii level ++ "," ++ writeItems ascii level vs

def writeFields (ascii : Bool) (level : Nat) : Fields → Text
  | [] => []
  | [(k, v)] => newLine level ++ string ascii k ++ ": " ++ v.write ascii level
  | (k, v) :: fs =>
    newLine level ++ string ascii k ++ ": " ++ v.write ascii level ++
      "," ++ writeFields ascii level fs

end

def render (ascii : Bool) (v : Json) : Text := v.write ascii 0

end Json

end ApiDocs
