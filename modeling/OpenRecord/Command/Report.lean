import OpenRecord.Expansion.Expander
import OpenRecord.JsonValue

namespace OpenRecord
namespace Command

/-!
# Reports

A run of the program is told as a list of events in the order in which they happen: messages of
some level, tables and lines for a reader, and plain output.  Messages carry a sign of their level;
those for debugging have none, and are only told if they are asked for.

The texts of messages, lines and tables may hold tags, also those that come from paths, diagnostics
and type annotations.  What a console makes of them is not told here.  It may fail at an event, for
instance at a tag that closes nothing.
-/

/-- How much a message matters. -/
inductive Level
  | debug
  | info
  | success
  | warning
  | failure
deriving DecidableEq

def Level.label : Level → Text
  | .debug => "DEBUG"
  | .info => "INFO"
  | .success => "SUCCESS"
  | .warning => "WARNING"
  | .failure => "ERROR"

def Level.sign : Level → Text
  | .debug => []
  | .info => "ℹ️  "
  | .success => "✅ "
  | .warning => "⚠️  "
  | .failure => "❌ "

/-- A table with a title, a caption below it, the heads of its columns and its rows. -/
structure Table where
  title : Text
  caption : Option Text
  columns : List Text
  rows : List (List Text)

/-- Something that a reader of the program notices. -/
inductive Event
  | message (level : Level) (text : Text)
  | table (table : Table)
  /-- A line of marked-up text. -/
  | line (text : Text)
  /-- Output without change. -/
  | output (text : Text)

namespace Event

def tell (level : Level) (text : Text) : Event :=
  .message level (level.sign ++ text)

def isDebug : Event → Bool
  | .message .debug _ => true
  | _ => false

/-- The plain output among events. -/
def outputOf (events : List Event) : Text :=
  events.flatMap fun event =>
    match event with
    | .output text => text
    | _ => []

end Event

/-- A console, as far as it matters here: which events it shows without failing.  Those that it leaves
out are among them. -/
structure Console where
  shows : Event → Bool

/-! ## Expanded files -/

/-- What came of a file: how many classes were expanded, or what was wrong. -/
structure FileReport where
  name : Text
  classes : Nat
  issues : List Text

namespace FileReport

/-- Whether nothing was wrong. -/
def success (report : FileReport) : Bool :=
  report.issues.isEmpty

def row (report : FileReport) : List Text :=
  [report.name, "❌ Failed", Text.join ['\n'] report.issues]

end FileReport

/-- The code with which the program ends after files have been dealt with. -/
def exitCode (reports : List FileReport) : Nat :=
  if reports.all (·.success) then 0 else 1

/-- The events that close the work on files: one message if nothing was wrong, else a table of the
files that failed. -/
def summary (reports : List FileReport) : List Event :=
  let failed := reports.filter fun report => !report.success
  if failed.isEmpty then
    [.tell .success ("Batch Complete: " ++ Text.decimal reports.length ++ " files processed, " ++
      Text.decimal (reports.foldl (fun count report => count + report.classes) 0) ++
      " classes expanded.")]
  else
    [.table ⟨"Expansion Report", none, ["File", "Status", "Issues"], failed.map (·.row)⟩,
      .line ("\n[bold]Summary:[/bold] " ++ Text.decimal (reports.length - failed.length) ++
        " Passed, " ++ Text.decimal failed.length ++ " Failed.")]

def extractionEvent (model : RecordModel) : Event :=
  .tell .debug ("Extracted " ++ Text.decimal model.fields.length ++ " fields from " ++
    model.typeName)

/-- The messages for the steps that an outcome has gone through. -/
def outcomeEvents (outcome : Outcome) : List Event :=
  match outcome.model with
  | none => []
  | some model =>
    extractionEvent model ::
      match outcome.result with
      | .error _ => []
      | .ok artifacts =>
        let count := Text.decimal artifacts.length
        [.tell .debug ("Generated " ++ count ++ " artifacts for " ++ model.typeName),
          .tell .debug ("Expanding " ++ model.typeName ++ " with " ++ count ++ " artifacts")]

/-! ## Models -/

def locationJson : Option Location → JsonValue
  | none => .null
  | some location =>
    .object [("filename", .ofText? location.filename), ("line", .ofNumber? location.line),
      ("column", .ofNumber? location.column)]

def modelJson (model : RecordModel) : JsonValue :=
  .object [
    ("type_name", .string model.typeName),
    ("generic_style", .string model.genericStyle.label),
    ("generic_parameters", .array (model.genericParameters.map fun parameter =>
      .object [("name", .string parameter.name), ("declaration", .string parameter.declaration)])),
    ("generic_base", .ofText? model.genericBase),
    ("fields", .array (model.fields.map fun field =>
      .object [("name", .string field.name), ("declared_type", .string field.declaredType),
        ("order_index", .number field.order), ("visibility", .string field.visibility.label),
        ("skip", .boolean field.skip)])),
    ("requested_capabilities", .array (model.capabilities.sorted.map fun capability =>
      .string capability.label)),
    ("member_names", .array (model.memberNames.map .string)),
    ("location", locationJson model.location)]

/-- The generic parameters of a model as they are declared, or a hyphen. -/
def genericsText (model : RecordModel) : Text :=
  match Text.join ", " (model.genericParameters.map (·.declaration)) with
  | [] => ['-']
  | declared => declared

def modelTable (model : RecordModel) : Table where
  title :=
    model.typeName ++ " (" ++ Text.join ", " (model.capabilities.sorted.map (·.label)) ++ ")"
  caption :=
    let place : Text :=
      match model.location with
      | none => "None"
      | some location => location.text
    some (place ++ "  generics: " ++ genericsText model)
  columns := ["#", "Field", "Type", "Visibility"]
  rows := model.fields.map fun field =>
    [Text.decimal field.order, field.name, field.declaredType, field.visibility.label]

end Command
end OpenRecord
