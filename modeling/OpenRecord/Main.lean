import OpenRecord.Command.Run

namespace OpenRecord
namespace Command

/-!
# The program on stored files

What a run can look at is taken from the stored files into a file tree: the places on the way to
the paths of its task, the configuration files beside that way, and the source files below the
paths.  The run itself happens on the tree.  Afterwards the directories and files of the tree that
are new or have another content are stored, and the events are shown.
-/

/-! ## What a run looks at -/

def Task.paths : Task → List Files.Path
  | .expand input output _ _ => input :: output.toList
  | .check input _ => [input]
  | .inspect input _ => [input]

/-- The places that lead to a place, and the place itself. -/
def leadingPlaces (place : List Text) : List (List Text) :=
  (List.range (place.length + 1)).map place.take

def placesAlong (start : List Text) (names : List Text) : List (List Text) :=
  (List.range (names.length + 1)).flatMap fun count =>
    leadingPlaces (Files.Tree.flatten start (names.take count))

/-- The places of which a run has to know what is there, the source files below a path apart. -/
def placesFor (workingDirectory : List Text) (paths : List Files.Path) : List (List Text) :=
  let empty : Files.Tree := ⟨workingDirectory, []⟩
  let along := paths.flatMap fun path => placesAlong (empty.start path) path.names
  (leadingPlaces workingDirectory ++ along).eraseDups.flatMap fun place =>
    [place, place ++ [Configuration.fileName]]

def changesIn (before after : Files.Tree) : List (List Text × Files.Entry) :=
  after.entries.filter fun known => !(before.entryAt known.1 == some known.2)

/-! ## What is shown -/

def Event.display : Event → Text
  | .message _ text => text ++ ['\n']
  | .line text => text ++ ['\n']
  | .output text => text
  | .table content =>
    let row (cells : List Text) : Text := Text.join " | " cells ++ ['\n']
    content.title ++ '\n' :: row content.columns ++ content.rows.flatMap row ++
      (content.caption.toList.flatMap fun caption => caption ++ ['\n'])

/-- What breaks a run off, in words. -/
def Breakage.message : Breakage → Text
  | .artifact _ => "a generated artifact does not parse"
  | .decoding fault => fault.message
  | .access fault => fault.message
  | .configuration fault => fault.message

/-! ## Stored files -/

/-- A place as the system writes it. -/
def writtenPlace (place : List Text) : String :=
  String.ofList ('/' :: Text.join ['/'] place)

/-- The place that the system writes in some way. -/
def readPlace (written : String) : List Text :=
  (Files.Path.ofText written.toList).names

def storedEntry? (place : List Text) : IO (Option Files.Entry) := do
  let path := (← IO.currentDir) / writtenPlace place
  if ← path.isDir then
    pure (some .directory)
  else if ← path.pathExists then
    try
      pure (some (.file (← IO.FS.readBinFile path).toList))
    catch _ =>
      pure (some .closed)
  else
    pure none

/-- The places of the source files and directories that the system stores below a place. -/
def storedBelow (place : List Text) : IO (List (List Text)) := do
  let path := (← IO.currentDir) / writtenPlace place
  if ← path.isDir then
    let found ← path.walkDir
    let places := found.toList.map fun below => readPlace below.toString
    pure (places.filter fun place => sourceEnding.isSuffixOf (place.getLastD []))
  else
    pure []

/-- The tree of what a run on some paths can look at. -/
def storedTree (paths : List Files.Path) : IO Files.Tree := do
  let workingDirectory := readPlace (← IO.currentDir).toString
  let empty : Files.Tree := ⟨workingDirectory, []⟩
  let mut places := placesFor workingDirectory paths
  for path in paths do
    places := places ++ (← storedBelow (Files.Tree.flatten (empty.start path) path.names))
  let mut tree := empty
  for place in places.eraseDups do
    match ← storedEntry? place with
    | some entry => tree := tree.putBelow place entry
    | none => pure ()
  pure tree

def store (place : List Text) : Files.Entry → IO Unit
  | .closed => pure ()
  | .directory => IO.FS.createDirAll (writtenPlace place)
  | .file content => IO.FS.writeBinFile (writtenPlace place) ⟨content.toArray⟩

/-- Show what a run has to say and give its code. -/
def finish (run : Run) : IO UInt32 := do
  for event in run.events do
    IO.print (String.ofList event.display)
  match run.ending with
  | .exit code => pure code.toUInt32
  | .usage fault =>
    IO.eprintln (String.ofList fault.message)
    pure 2
  | .broken breakage =>
    IO.eprintln (String.ofList breakage.message)
    pure 1

/-- Run the program on the stored files that its arguments concern. -/
def runStored (arguments : List Text) : IO UInt32 := do
  let paths : List Files.Path :=
    match Invocation.ofArguments arguments with
    | .ok (.perform _ task) => task.paths
    | _ => []
  let tree ← storedTree paths
  let done := run tree arguments
  for (place, entry) in changesIn tree done.tree do
    store place entry
  finish done

end Command
end OpenRecord

/-- Run the program on the stored files. -/
def main (arguments : List String) : IO UInt32 :=
  OpenRecord.Command.runStored (arguments.map (·.toList))
