import ApiDocs.CommandLine.Arguments
import ApiDocs.Disk
import ApiDocs.Resolution.ReportDocument
import ApiDocs.Run
import ApiDocs.Text.Lines

/-!
# The command line program

The program reads a model file and a settings file, makes all documents, and only then touches the
output directory. What it does there is given as steps, which can be taken on a disk. What a text of
the data notation says is up to the reader that the program is run with.
-/

namespace ApiDocs

namespace CommandLine

open Text

variable [Value.Arrangement]

/-- What the program is run in. -/
structure Environment where
  /-- What a path leads to, if there is anything. -/
  find? : Path → Except FileFault (Option Entry)
  /-- What a text of the data notation says. -/
  read : Text → Except Failure Value
  workingDirectory : Path := { root := "/" }
  clock : Clock := {}

/-- How the program ends: with a code, or with a message for the user. -/
inductive Ending where
  | code (n : Nat)
  | message (s : Text)
  deriving DecidableEq, Repr

/-- A step that shows outside. -/
inductive Step where
  | makeDirectories (p : Path)
  | write (p : Path) (text : Text)
  | print (line : Text)
  deriving DecidableEq, Repr

/-- What the program does. -/
structure Outcome where
  /-- The steps, up to the first that fails. -/
  steps : List Step := []
  /-- How the program ends if no step fails. -/
  ending : Except Failure Ending
  /-- What the stages noted down. -/
  notes : List Note := []

/-! ### Reading -/

def Environment.entry? (env : Environment) (p : Path) : Except Failure (Option Entry) :=
  (env.find? p).mapError .file

def textOf : Entry → Except Failure Text
  | .directory => .error (.file .isDirectory)
  | .file text => .ok text

/-- The settings of a settings file; those of no file or of a missing one are the defaults. -/
def settingsOf (read : Text → Except Failure Value) (text : Option Text) :
    Except Failure Settings := do
  let overrides ← match text with
    | some s => read (unifyLineEnds s)
    | none => pure .null
  Settings.ofOverrides overrides

/-- The mark of a line that says what a model file holds. -/
def mimeMark : Text := "### YamlMime:"

def declarationsOf (read : Text → Except Failure Value) (text : Text) :
    Except Failure (List Declaration) := do
  Declaration.ofDocument (← read (dropMarkedLine mimeMark (unifyLineEnds text)))

def Environment.settings (env : Environment) (a : Arguments) : Except Failure Settings :=
  match a.config.filter (· ≠ []) with
  | some path => do settingsOf env.read (← (← env.entry? (.ofText path)).mapM textOf)
  | none => settingsOf env.read none

/-! ### Writing -/

/-- The line that is printed after a number of pages. -/
def progressLine (count total : Nat) : Text :=
  "  ... wrote " ++ natural count ++ "/" ++ natural total ++ " pages"

/-- Write documents, some of which are written, into a directory. -/
def writeSteps (outDir : Path) (total : Nat) (written : Nat) : List (Text × Text) → List Step
  | [] => []
  | (file, text) :: rest =>
    let p := outDir.join (.ofText file)
    let count := written + 1
    .makeDirectories p.parent :: .write p text ::
      ((if count % 50 = 0 then [.print (progressLine count total)] else []) ++
        writeSteps outDir total count rest)

def writeDocuments (outDir : Path) (run : Run) : Outcome :=
  let total := run.documents.entries.length
  let summary : Text := "Generated " ++ natural total ++ " pages into: " ++ outDir.toText ++ " (" ++
    natural run.report.resolved.length ++ " links resolved, " ++
    natural run.report.unresolved.length ++ " unresolved)"
  { steps :=
      .makeDirectories outDir :: .print ("Writing " ++ natural total ++ " pages...") ::
        (writeSteps outDir total 0 run.documents.entries ++ [.print summary])
    ending := .ok (.code 0)
    notes := run.notes }

def reportPath (s : Settings) : Except Failure Path :=
  match s.get "report" with
  | .map es =>
    match Value.find? (.text "path") es with
    | some v => do
      Value.checkWritable [v]
      return .ofText v.toText
    | none => .error .noEntry
  | _ => .error .wrongSort

/-- Write the report of a run. The output directory is made before the path of the report is looked
at. -/
def writeReport (clock : Clock) (outDir : Path) (run : Run) (s : Settings) : Outcome :=
  let always := Step.makeDirectories outDir
  match reportPath s with
  | .error e => { steps := [always], ending := .error e, notes := run.notes }
  | .ok path =>
    let p := outDir.join path
    { steps :=
        [always, .write p (run.report.document clock),
          .print ("Dry run complete. Report generated at " ++ p.toText)]
      ending := .ok (.code 0)
      notes := run.notes }

/-- The output directory that the arguments name. -/
def Environment.outDir (env : Environment) (a : Arguments) : Except Failure Path :=
  match a.outDir.map Path.ofText with
  | none => .error .noDirectory
  | some p =>
    if p.toText.contains '\x00' then .error (.file .noPath)
    else .ok (env.workingDirectory.resolve p)

/-! ### The program -/

/-- A failure that the user is told about ends the program with code 1; any other one surfaces. -/
def Outcome.failed (reported : Failure → Bool) (e : Failure) : Outcome :=
  match reported e, e.message? with
  | true, some message =>
    { steps := [.print ("Error: " ++ message)], ending := .ok (.code 1) }
  | _, _ => { ending := .error e }

def isOfDeclarations : Failure → Bool
  | .malformed .. | .duplicate .. => true
  | _ => false

def isOfSettings : Failure → Bool
  | .unknownChoice .. | .noDigits _ | .tooManyDigits _ | .tooLongToWrite | .noCodePoint => true
  | _ => false

/-- Make everything for a model file before anything is written. -/
def prepare (env : Environment) (settings : Settings) (model : Entry) :
    Except Failure (Settings × Run) := do
  let ds ← declarationsOf env.read (← textOf model)
  let settings ← Settings.ofOverrides (.map settings.entries)
  return (settings, ← Run.ofDeclarations settings ds)

/-- Run the program on a model file with arguments. -/
def runOn (env : Environment) (a : Arguments) (model : Entry) : Outcome :=
  match env.settings a with
  | .error e => .failed isOfSettings e
  | .ok settings =>
    match prepare env (a.override settings) model with
    | .error e => .failed isOfDeclarations e
    | .ok (settings, run) =>
      match env.outDir a with
      | .error e => { ending := .error e, notes := run.notes }
      | .ok outDir =>
        if a.dryRun then writeReport env.clock outDir run settings else writeDocuments outDir run

def runWith (env : Environment) (a : Arguments) : Outcome :=
  let p := Path.ofText a.model
  match env.entry? p with
  | .error e => { ending := .error e }
  | .ok none => { ending := .ok (.message ("API model not found: " ++ p.toText)) }
  | .ok (some model) => runOn env a model

/-- Run the program with the words of a command line. -/
def run (env : Environment) (words : List Text) : Outcome :=
  match Arguments.ofWords words with
  | .error .help => { ending := .ok (.code 0) }
  | .error .wrong => { ending := .ok (.code 2) }
  | .ok a => runWith env a

/-- The paths that a run with arguments looks up. -/
def Arguments.paths (a : Arguments) : List Path := (a.model :: a.config.toList).map Path.ofText

/-! ### Steps on a disk -/

/-- What is left of a run: the disk, the lines that were printed, and the end. -/
structure Trace where
  disk : Disk
  lines : List Text := []
  ending : Except Failure Ending

/-- Take steps one after the other, up to the first that fails. -/
def takeSteps (ending : Except Failure Ending) (disk : Disk) : List Step → Trace
  | [] => { disk, ending }
  | .print line :: rest =>
    let trace := takeSteps ending disk rest
    { trace with lines := line :: trace.lines }
  | .makeDirectories p :: rest =>
    match disk.makeDirectories p with
    | (disk, none) => takeSteps ending disk rest
    | (disk, some fault) => { disk, ending := .error (.file fault) }
  | .write p text :: rest =>
    match disk.write p text with
    | (disk, none) => takeSteps ending disk rest
    | (disk, some fault) => { disk, ending := .error (.file fault) }

def Outcome.onDisk (o : Outcome) (disk : Disk) : Trace := takeSteps o.ending disk o.steps

/-- What the program is run in on a disk. -/
def environmentOn (read : Text → Except Failure Value) (disk : Disk) (clock : Clock) :
    Environment where
  find? := disk.find?
  read := read
  workingDirectory := ⟨"/", disk.workingDirectory⟩
  clock := clock

end CommandLine

end ApiDocs
