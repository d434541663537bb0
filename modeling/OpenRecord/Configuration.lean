import OpenRecord.Files.Tree
import OpenRecord.Settings
import OpenRecord.Toml.Document

namespace OpenRecord

/-!
# Configuration files

The settings of a project stand in one table of its configuration file, which is looked for in a
directory and then in the directories above it.  The nearest file counts, even if it has no such
table.  Values given by a caller take the place of those in the file, and only what remains is
checked.
-/

inductive ConfigurationFault
  | unreadable (fault : Files.AccessFault)
  /-- The file is no text. -/
  | undecodable (fault : Text.DecodingFault)
  /-- The text is no configuration file. -/
  | malformed
  /-- A value of some type stands where a table is expected that is asked for its `access`. -/
  | notATable (type : Text) (access : Text)
  | invalid (faults : List SettingFault)

namespace ConfigurationFault

def describe (fault : SettingFault) : Text :=
  match fault.place with
  | none => fault.problem.message
  | some name => name.label ++ ": " ++ fault.problem.message

def message : ConfigurationFault → Text
  | .unreadable fault => fault.message
  | .undecodable fault => fault.message
  | .malformed => "the file is malformed"
  | .notATable type access => Text.quoted type ++ " object has no attribute " ++ Text.quoted access
  | .invalid faults => Text.join ['\n'] (faults.map describe)

end ConfigurationFault

namespace Configuration

def fileName : Text := "pyproject.toml"

def tableNames : Text × Text := ("tool", "destructure")

/-- The table of settings within a configuration file; it is empty if there is none. -/
def settingsTable (document : Toml.Table) : Except ConfigurationFault Toml.Table :=
  match Toml.Table.get? document tableNames.1 with
  | none => .ok []
  | some (.table tools) =>
    match Toml.Table.get? tools tableNames.2 with
    | none => .ok []
    | some (.table members) => .ok members
    | some value => .error (.notATable value.typeName "items")
  | some value => .error (.notATable value.typeName "get")

/-- A value of a configuration file as it may be offered as a setting. -/
def settingValue : Toml.Value → SettingValue
  | .string text => .string text
  | .boolean value => .boolean value
  | .integer value => .whole value
  | .decimal value =>
    match value.whole? with
    | some whole => .whole whole
    | none => .fractional
  | .extreme => .fractional
  | _ => .other

/-- The values that the bytes of a configuration file give. -/
def readValues (content : List UInt8) : Except ConfigurationFault SettingValues :=
  match Text.decode content with
  | .error fault => .error (.undecodable fault)
  | .ok text =>
    match Toml.parse? text with
    | none => .error .malformed
    | some document =>
      match settingsTable document with
      | .error fault => .error fault
      | .ok members =>
        .ok (.ofList (members.map fun member => (member.1, settingValue member.2)))

/-- The values that the configuration file of a directory gives. -/
def valuesIn (tree : Files.Tree) (place : List Text) : Except ConfigurationFault SettingValues :=
  match tree.contentAt (place ++ [fileName]) with
  | .error reason => .error (.unreadable ⟨reason, .ofPlace (place ++ [fileName])⟩)
  | .ok content => readValues content

/-- The values of the nearest configuration file and the directory it was found in. -/
def find (tree : Files.Tree) (start : Files.Path) :
    Except ConfigurationFault (SettingValues × Option (List Text)) :=
  match tree.nearest start fileName with
  | none => .ok (.empty, none)
  | some place => (valuesIn tree place).map (·, some place)

/-- The settings for a directory, and where the configuration file was found. -/
def load (tree : Files.Tree) (start : Files.Path) (given : SettingValues) :
    Except ConfigurationFault (Settings × Option (List Text)) :=
  match find tree start with
  | .error fault => .error fault
  | .ok (values, place) =>
    match Settings.check (given.orElse values) with
    | .error faults => .error (.invalid faults)
    | .ok settings => .ok (settings, place)

end Configuration
end OpenRecord
