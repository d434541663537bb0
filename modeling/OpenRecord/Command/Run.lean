import OpenRecord.Command.Invocation
import OpenRecord.Command.Report
import OpenRecord.Configuration

namespace OpenRecord
namespace Command

/-!
# Runs of the program

A run starts with a file tree and a list of arguments, and ends with a file tree, the events in
between and an ending.  A file is written only if nothing is wrong with it; the other files of a
directory are dealt with nevertheless.

A run is told as if every event could be shown.  On a console that fails at one of them it goes no
further than that event, which `Run.endingOn` takes into account.

A run is also told as if there were room for everything.  Neither memory nor the depth of recursion
runs out, however long or deeply nested the files are.
-/

/-- What ends a run at once, in whatever state it is. -/
inductive Breakage
  | artifact (fault : SpliceFault)
  | decoding (fault : Text.DecodingFault)
  | access (fault : Files.AccessFault)
  | configuration (fault : ConfigurationFault)

inductive Ending
  | exit (code : Nat)
  | usage (fault : UsageFault)
  | broken (breakage : Breakage)

/-- What came of a part of a run: the tree after it, the events in it, and its result unless the
run broke off. -/
structure Progress (α : Type) where
  tree : Files.Tree
  events : List Event
  result : Except Breakage α

structure Run where
  tree : Files.Tree
  events : List Event
  ending : Ending

namespace Run

def ended (tree : Files.Tree) (events : List Event) (code : Nat) : Run :=
  ⟨tree, events, .exit code⟩

/-- A run that has found nothing to work on. -/
def refused (tree : Files.Tree) (level : Level) (words : Text) (code : Nat) : Run :=
  ended tree [.tell level words] code

def after (events : List Event) (run : Run) : Run :=
  { run with events := events ++ run.events }

/-- How a run ends on a console, or the first event at which the console fails. -/
def endingOn (console : Console) (run : Run) : Except Event Ending :=
  match run.events.find? fun event => !console.shows event with
  | some event => .error event
  | none => .ok run.ending

end Run

/-! ## Reading source files -/

/-- Why a source file could not be read. -/
inductive ReadFault
  | access (fault : Files.AccessFault)
  | decoding (fault : Text.DecodingFault)

def ReadFault.message : ReadFault → Text
  | .access fault => fault.message
  | .decoding fault => fault.message

/-- A fault as the end of a run. -/
def ReadFault.breakage : ReadFault → Breakage
  | .access fault => .access fault
  | .decoding fault => .decoding fault

/-- The text of a source file, with every line break as a line feed. -/
def readSource (tree : Files.Tree) (path : Files.Path) : Except ReadFault Text :=
  match tree.read path with
  | .error fault => .error (.access fault)
  | .ok content =>
    match Text.decode content with
    | .error fault => .error (.decoding fault)
    | .ok text => .ok text.normalizeBreaks

/-- The ending of the names of source files. -/
def sourceEnding : Text := ".py"

/-- The directory in which the search for the configuration of a path starts. -/
def configurationStart (tree : Files.Tree) (input : Files.Path) : Files.Path :=
  if tree.hasDirectory input then input else input.parent

/-- Whether a fault of the configuration breaks a run off.  The others are reported. -/
def breaksOff : ConfigurationFault → Bool
  | .unreadable _ => true
  | .notATable _ _ => true
  | _ => false

/-- Go on with the settings for a path, unless there are none. -/
def withSettings (tree : Files.Tree) (input : Files.Path) (given : SettingValues)
    (next : Settings → Run) : Run :=
  match Configuration.load tree (configurationStart tree input) given with
  | .ok (settings, _) => next settings
  | .error fault =>
    if breaksOff fault then ⟨tree, [], .broken (.configuration fault)⟩
    else .refused tree .failure ("Invalid configuration: " ++ fault.message) 1

/-- The affix that was given with an option. -/
def givenValues (companionPrefix : Option Text) (withoutImports : Bool) : SettingValues :=
  { SettingValues.empty with
    companionPrefix := companionPrefix.map .string
    injectImports := if withoutImports then some (.boolean false) else none }

/-! ## Expanding -/

def writeExpanded (tree : Files.Tree) (input output : Files.Path) (name : Text)
    (expansion : Expansion) : Progress FileReport :=
  match tree.makeDirectories output.parent with
  | .error fault => ⟨tree, [], .error (.access fault)⟩
  | .ok made =>
    match made.write output (Text.encode expansion.code) with
    | .error fault => ⟨made, [], .error (.access fault)⟩
    | .ok written =>
      let events : List Event :=
        if expansion.models.isEmpty then []
        else [.tell .success ("Expanded " ++ Text.join ", " expansion.expandedTypes ++ ": [path]" ++
          input.text ++ "[/path] -> [path]" ++ output.text ++ "[/path]")]
      ⟨written, events, .ok ⟨name, expansion.models.length, []⟩⟩

def expandFile (settings : Settings) (tree : Files.Tree) (input : Files.Path)
    (output : Option Files.Path) (name : Text) : Progress FileReport :=
  match readSource tree input with
  | .error fault =>
    ⟨tree, [.tell .failure ("Failed to read " ++ input.text ++ ": " ++ fault.message)],
      .ok ⟨name, 0, [fault.message]⟩⟩
  | .ok code =>
    match expandWithOutcomes settings code (some input.text) with
    | (outcomes, result) =>
      let steps := outcomes.flatMap outcomeEvents
      match result with
      | .error fault => ⟨tree, steps, .error (.artifact fault)⟩
      | .ok expansion =>
        if !expansion.success then
          ⟨tree, steps ++ expansion.errors.map (.tell .failure), .ok ⟨name, 0, expansion.errors⟩⟩
        else match output with
          | none =>
            ⟨tree, steps ++ [.output expansion.code], .ok ⟨name, expansion.models.length, []⟩⟩
          | some output =>
            let written := writeExpanded tree input output name expansion
            { written with events := steps ++ written.events }

/-- Expand the files of a directory one after the other. -/
def expandFiles (settings : Settings) (input output : Files.Path) :
    Files.Tree → List (List Text) → Progress (List FileReport)
  | tree, [] => ⟨tree, [], .ok []⟩
  | tree, names :: later =>
    let first :=
      expandFile settings tree (input.descend names) (some (output.descend names))
        (Text.join ['/'] names)
    match first.result with
    | .error breakage => ⟨first.tree, first.events, .error breakage⟩
    | .ok report =>
      let rest := expandFiles settings input output first.tree later
      { rest with
        events := first.events ++ rest.events
        result := rest.result.map (report :: ·) }

def runExpandFile (settings : Settings) (tree : Files.Tree) (input : Files.Path)
    (output : Option Files.Path) : Run :=
  let done := expandFile settings tree input output input.name
  match done.result with
  | .error breakage => ⟨done.tree, done.events, .broken breakage⟩
  | .ok report =>
    if report.success then .ended done.tree done.events 0
    else .ended done.tree (done.events ++ summary [report]) 1

def runExpandDirectory (settings : Settings) (tree : Files.Tree) (input : Files.Path)
    (output : Option Files.Path) : Run :=
  match output with
  | none =>
    .refused tree .failure "Directory expansion requires --out destination directory." 1
  | some output =>
    match tree.search input sourceEnding with
    | [] => .refused tree .warning ("No .py files found in " ++ input.text) 0
    | first :: later =>
      let found := first :: later
      let start : Event :=
        .tell .info ("Processing " ++ Text.decimal found.length ++ " files from " ++ input.text ++
          "...")
      let done := expandFiles settings input output tree found
      match done.result with
      | .error breakage => ⟨done.tree, start :: done.events, .broken breakage⟩
      | .ok reports =>
        .ended done.tree (start :: done.events ++ summary reports) (exitCode reports)

def runExpand (tree : Files.Tree) (input : Files.Path) (output : Option Files.Path)
    (companionPrefix : Option Text) (withoutImports : Bool) : Run :=
  if !tree.holds input then .refused tree .failure ("Input not found: " ++ input.text) 1
  else withSettings tree input (givenValues companionPrefix withoutImports) fun settings =>
    if tree.hasFile input then runExpandFile settings tree input output
    else runExpandDirectory settings tree input output

/-! ## Checking -/

def checkFile (settings : Settings) (tree : Files.Tree) (input : Files.Path) (name : Text) :
    List Event × Except Breakage FileReport :=
  match readSource tree input with
  | .error fault => ([], .ok ⟨name, 0, [fault.message]⟩)
  | .ok code =>
    match expandWithOutcomes settings code (some input.text) with
    | (outcomes, result) =>
      (outcomes.flatMap outcomeEvents,
        match result with
        | .error fault => .error (.artifact fault)
        | .ok expansion => .ok ⟨name, expansion.models.length, expansion.errors⟩)

/-- Expand files in memory, each given by its path and the name it is reported under. -/
def checkFiles (settings : Settings) (tree : Files.Tree) :
    List (Files.Path × Text) → List Event × Except Breakage (List FileReport)
  | [] => ([], .ok [])
  | (input, name) :: later =>
    match checkFile settings tree input name with
    | (events, .error breakage) => (events, .error breakage)
    | (events, .ok report) =>
      match checkFiles settings tree later with
      | (laterEvents, rest) => (events ++ laterEvents, rest.map (report :: ·))

def runCheck (tree : Files.Tree) (input : Files.Path) (companionPrefix : Option Text) : Run :=
  if !tree.holds input then .refused tree .failure ("Input not found: " ++ input.text) 1
  else withSettings tree input (givenValues companionPrefix false) fun settings =>
    let files : List (Files.Path × Text) :=
      if tree.hasFile input then [(input, input.name)]
      else (tree.search input sourceEnding).map fun names =>
        (input.descend names, Text.join ['/'] names)
    match files with
    | [] => .refused tree .warning ("No .py files found in " ++ input.text) 0
    | first :: later =>
      match checkFiles settings tree (first :: later) with
      | (events, .error breakage) => ⟨tree, events, .broken breakage⟩
      | (events, .ok reports) => .ended tree (events ++ summary reports) (exitCode reports)

/-! ## Inspecting -/

def modelEvents (input : Files.Path) (asJson : Bool) (expansion : Expansion) : List Event :=
  if asJson then
    [.output ((JsonValue.array (expansion.models.map modelJson)).text ++ ['\n'])]
  else if expansion.models.isEmpty && expansion.success then
    [.tell .warning ("No annotated classes in " ++ input.text)]
  else expansion.models.map fun model => .table (modelTable model)

def runInspect (tree : Files.Tree) (input : Files.Path) (asJson : Bool) : Run :=
  if !tree.hasFile input then
    .refused tree .failure ("Input file not found: " ++ input.text) 1
  else match readSource tree input with
    | .error fault => ⟨tree, [], .broken fault.breakage⟩
    | .ok code =>
      let expansion := OpenRecord.inspect code (some input.text)
      .ended tree
        (expansion.models.map extractionEvent ++ expansion.errors.map (.tell .failure) ++
          modelEvents input asJson expansion)
        (if expansion.success then 0 else 1)

/-! ## The whole program -/

def versionText : Text := programName ++ " 0.3.0\n"

/-- A short description of how the program or a command of it is used. -/
def helpText (program : Text) : Text :=
  "usage: " ++ program ++ " [-h] ...\n"

def Task.run (tree : Files.Tree) : Task → Run
  | .expand input output companionPrefix withoutImports =>
    runExpand tree input output companionPrefix withoutImports
  | .check input companionPrefix => runCheck tree input companionPrefix
  | .inspect input asJson => runInspect tree input asJson

/-- Run the program.  Messages for debugging are left out unless they are asked for. -/
def run (tree : Files.Tree) (arguments : List Text) : Run :=
  match Invocation.ofArguments arguments with
  | .error fault => ⟨tree, [], .usage fault⟩
  | .ok .version => .ended tree [.output versionText] 0
  | .ok (.help program) => .ended tree [.output (helpText program)] 0
  | .ok (.perform verbose task) =>
    let run := task.run tree
    if verbose then run
    else { run with events := run.events.filter fun event => !event.isDebug }

end Command
end OpenRecord
