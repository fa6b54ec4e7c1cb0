import ApiDocs.Failure
import ApiDocs.Path
import ApiDocs.Table

/-!
# Disks

A disk holds directories and files. A path is followed name by name; every name but the last has to
lead to a directory. A path is checked as a whole before its first name is looked at. A change that
fails leaves everything as it was, except that directories made on the way stay and that a file
whose text cannot be written is left empty.
-/

namespace ApiDocs

open Text

/-- What stands at a location on a disk. -/
inductive Entry where
  | directory
  | file (text : Text)
  deriving DecidableEq, Repr

/-- A location on a disk: the names that lead to it from the root. -/
abbrev Disk.Location := List Text

/-- Directories and files by the texts of their paths from the root. -/
structure Disk where
  entries : Table Entry := .empty
  /-- Where paths start that have no root. -/
  workingDirectory : Disk.Location := []

/-! ### Lengths -/

/-- How many bytes a code point takes in a path. The surrogates from U+DC80 to U+DCFF stand for
single bytes, and the others cannot be in a path. -/
def CodePoint.byteCount? : CodePoint → Option Nat
  | char c => some c.utf8Size
  | surrogate k => if 0x480 ≤ k.val && k.val < 0x500 then some 1 else none

/-- How many bytes a text takes in a path. -/
def Text.byteCount? (t : Text) : Option Nat := t.foldlM (fun n c => (n + ·) <$> c.byteCount?) 0

namespace Disk

/-- How many bytes a name may have. -/
def nameLimit : Nat := 255

/-- How many bytes a path may have. -/
def pathLimit : Nat := 4095

def isTooLong (name : Text) : Bool := name.byteCount?.any (nameLimit < ·)

/-- Check a path before it is followed. -/
def check (p : Path) : Except FileFault Unit :=
  match p.toText.byteCount? with
  | none => .error .unwritable
  | some n =>
    if p.toText.contains '\x00' then .error .noPath
    else if pathLimit < n then .error .tooLong
    else .ok ()

/-! ### Following paths -/

/-- What stands at a location. -/
def at? (d : Disk) (loc : Location) : Option Entry :=
  if loc.isEmpty then some .directory else d.entries.get? (Path.toText ⟨"/", loc⟩)

/-- The disk with an entry at a location. -/
def put (d : Disk) (loc : Location) (e : Entry) : Disk :=
  { d with entries := d.entries.put (Path.toText ⟨"/", loc⟩) e }

def start (d : Disk) (p : Path) : Location := if p.isAbsolute then [] else d.workingDirectory

/-- The location that names lead to from a directory. -/
def follow (d : Disk) (dir : Location) : List Text → Except FileFault Location
  | [] => .ok dir
  | name :: rest =>
    if name = Path.up then d.follow dir.dropLast rest
    else if isTooLong name then .error .tooLong
    else match d.at? (dir ++ [name]) with
      | none => .error .missing
      | some .directory => d.follow (dir ++ [name]) rest
      | some (.file _) => if rest.isEmpty then .ok (dir ++ [name]) else .error .wayBlocked

/-- The directory that a path leads to. -/
def enter (d : Disk) (p : Path) : Except FileFault Location := do
  let loc ← d.follow (d.start p) p.names
  match d.at? loc with
  | some (.file _) => throw .wayBlocked
  | _ => return loc

/-- The directory of a path and its last name; no name where the path ends in a directory by its
form. -/
def locate (d : Disk) (p : Path) : Except FileFault (Location × Option Text) := do
  check p
  match p.names.getLast? with
  | none => return (d.start p, none)
  | some name =>
    let dir ← d.enter p.parent
    if name = Path.up then return (dir.dropLast, none)
    else if isTooLong name then throw .tooLong
    else return (dir, some name)

/-- What a path leads to. -/
def look (d : Disk) (p : Path) : Except FileFault Entry := do
  check p
  let loc ← d.follow (d.start p) p.names
  match d.at? loc with
  | some e => return e
  | none => throw .missing

/-- What a path leads to, if there is anything. Only a path that is too long is at fault. -/
def find? (d : Disk) (p : Path) : Except FileFault (Option Entry) :=
  match d.look p with
  | .ok e => .ok (some e)
  | .error .tooLong => .error .tooLong
  | .error _ => .ok none

/-! ### Changes -/

/-- Make a directory where there is nothing. -/
def makeDirectory (d : Disk) (p : Path) : Except FileFault Disk := do
  match ← d.locate p with
  | (_, none) => throw .placeTaken
  | (dir, some name) =>
    match d.at? (dir ++ [name]) with
    | some _ => throw .placeTaken
    | none => return d.put (dir ++ [name]) .directory

/-- The fault that is left of one at a path where a directory is to be made: none if there is a
directory. A text that is no path stays at fault. -/
def faultAt (d : Disk) (p : Path) (fault : FileFault) : Option FileFault :=
  match fault, d.find? p with
  | .noPath, _ | .unwritable, _ => some fault
  | _, .ok (some .directory) => none
  | _, .ok _ => some fault
  | _, .error e => some e

/-- Make the directory of a root and of names, the last one first, with those above it that are
missing. -/
def makeAll (d : Disk) (root : Text) : List Text → Disk × Option FileFault
  | [] =>
    match d.makeDirectory ⟨root, []⟩ with
    | .ok d => (d, none)
    | .error fault => (d, if fault = .missing then some fault else d.faultAt ⟨root, []⟩ fault)
  | name :: above =>
    let p : Path := ⟨root, (name :: above).reverse⟩
    match d.makeDirectory p with
    | .ok d => (d, none)
    | .error .missing =>
      match makeAll d root above with
      | (d, some fault) => (d, some fault)
      | (d, none) =>
        match d.makeDirectory p with
        | .ok d => (d, none)
        | .error fault => (d, if fault = .missing then some fault else d.faultAt p fault)
    | .error fault => (d, d.faultAt p fault)

/-- Make a directory with those above it that are missing; one that is there is left as it is. -/
def makeDirectories (d : Disk) (p : Path) : Disk × Option FileFault :=
  d.makeAll p.root p.names.reverse

def write (d : Disk) (p : Path) (text : Text) : Disk × Option FileFault :=
  match d.locate p with
  | .error fault => (d, some fault)
  | .ok (_, none) => (d, some .isDirectory)
  | .ok (dir, some name) =>
    match d.at? (dir ++ [name]), text.toString? with
    | some .directory, _ => (d, some .isDirectory)
    | _, none => (d.put (dir ++ [name]) (.file []), some .unwritable)
    | _, some _ => (d.put (dir ++ [name]) (.file text), none)

end Disk

end ApiDocs
