import ApiDocs.CommandLine.Program
import ApiDocs.Yaml.Document

/-!
# The program with a reader of its own

The program is run with a reader of a part of the data notation: collections in blocks and in
brackets, and scalars that are plain, quoted or in blocks. It refuses anchors, aliases and tags, and
takes what looks like a date for a text.
-/

namespace ApiDocs

namespace CommandLine

def loadSettings : Option Text → Except Failure Settings := settingsOf Yaml.read

def loadModel : Text → Except Failure (List Declaration) := declarationsOf Yaml.read

/-- Run the program on a disk. -/
def runOnDisk (disk : Disk) (clock : Clock) (words : List Text) : Trace :=
  (run (environmentOn Yaml.read disk clock) words).onDisk disk

end CommandLine

end ApiDocs
