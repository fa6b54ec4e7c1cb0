import ApiDocs.CommandLine

/-!
# The program

Files are read and written here; what is done with them is decided by `CommandLine.run`.
-/

open ApiDocs

namespace ApiDocs.Program

/-- What a path leads to. A directory can be opened and not read, and only a failure to open names
the path. -/
def entryAt? (p : Path) : IO (Except FileFault (Option Entry)) := do
  match p.toText.toString? with
  | none => return .ok none
  | some path =>
    try
      return .ok (some (.file (← IO.FS.readFile path)))
    catch
      | .inappropriateType none .. => return .ok (some .directory)
      | .invalidArgument .. => return .error .tooLong
      | _ => return .ok none

/-- What the paths that a command line names lead to. -/
def entriesOf (words : List Text) : IO (List (Path × Except FileFault (Option Entry))) := do
  match CommandLine.Arguments.ofWords words with
  | .error _ => return []
  | .ok a => a.paths.mapM fun p => do return (p, ← entryAt? p)

def stringOf (t : Text) : IO String :=
  match t.toString? with
  | some s => return s
  | none => throw (.userError "a surrogate that stands alone cannot be written")

/-- Print the notes of a run that are of general interest. -/
def printNotes (words : List Text) (notes : List Note) : IO Unit := do
  match CommandLine.Arguments.ofWords words with
  | .ok a =>
    if a.verbose then
      for note in notes.filter (! ·.isDetail) do
        IO.eprintln (← stringOf note.message)
  | .error _ => return

/-- Take a step. A file whose text cannot be written is left empty. -/
def take : CommandLine.Step → IO Unit
  | .makeDirectories p => do IO.FS.createDirAll (← stringOf p.toText)
  | .write p text => do
    let path ← stringOf p.toText
    IO.FS.writeFile path (text.toString?.getD "")
    discard (stringOf text)
  | .print line => do IO.println (← stringOf line)

/-- Why the program could not end, in words. -/
def explain (e : Failure) : Text := e.message?.getD "the input cannot be processed"

/-- End the program as an outcome says. -/
def finish : Except Failure CommandLine.Ending → IO UInt32
  | .ok (.code n) => return n.toUInt32
  | .ok (.message s) => do
    IO.eprintln (← stringOf s)
    return 1
  | .error e => do
    IO.eprintln (← stringOf (explain e))
    return 1

end ApiDocs.Program

open ApiDocs.Program in
def main (args : List String) : IO UInt32 := do
  let start ← IO.monoMsNow
  let words := args.map Text.ofString
  let workingDirectory := (← IO.currentDir).toString
  let entries ← entriesOf words
  let duration := ((← IO.monoMsNow) - start) / 1000
  let outcome := CommandLine.run
    { find? := fun p => (entries.lookup p).getD (.ok none)
      read := Yaml.read
      workingDirectory := .ofText workingDirectory
      clock := { timestamp := start / 1000, duration } }
    words
  printNotes words outcome.notes
  outcome.steps.forM take
  finish outcome.ending
