import OpenRecord.Command.Arguments
import OpenRecord.Files.Path

namespace OpenRecord
namespace Command

/-!
# Invocations

The program has three commands: expanding files or directories, checking them without writing, and
inspecting the record models of one file.  Each has options of its own; the options before the
command concern the program as a whole.
-/

/-- What the program is asked to do with files. -/
inductive Task
  | expand (input : Files.Path) (output : Option Files.Path) (companionPrefix : Option Text)
      (withoutImports : Bool)
  | check (input : Files.Path) (companionPrefix : Option Text)
  | inspect (input : Files.Path) (asJson : Bool)

inductive Invocation
  | version
  /-- A description of the program or of one of its commands. -/
  | help (program : Text)
  | perform (verbose : Bool) (task : Task)

inductive CommandName
  | expand
  | check
  | inspect
deriving DecidableEq

inductive Meaning
  | help
  | version
  | verbose
  | output
  | companionPrefix
  | withoutImports
  | asJson
deriving DecidableEq

/-- Whether an option is answered at once, whatever stands after it. -/
def Meaning.final : Meaning → Bool
  | .help => true
  | .version => true
  | _ => false

namespace CommandName

/-- The commands in the order in which they are listed. -/
def all : List CommandName :=
  [.expand, .check, .inspect]

def label : CommandName → Text
  | .expand => "expand"
  | .check => "check"
  | .inspect => "inspect"

def ofLabel? (label : Text) : Option CommandName :=
  all.find? (·.label == label)

end CommandName

def helpRule : OptionRule Meaning :=
  ⟨["-h", "--help"], false, .help⟩

/-- The option that names another companion affix. -/
def companionPrefixRule : OptionRule Meaning :=
  ⟨["--prefix"], true, .companionPrefix⟩

/-- The options before the command. -/
def programRules : List (OptionRule Meaning) :=
  [helpRule, ⟨["--version"], false, .version⟩, ⟨["-v", "--verbose"], false, .verbose⟩]

def CommandName.rules : CommandName → List (OptionRule Meaning)
  | .expand =>
    [helpRule, ⟨["--out"], true, .output⟩, companionPrefixRule,
      ⟨["--no-imports"], false, .withoutImports⟩]
  | .check => [helpRule, companionPrefixRule]
  | .inspect => [helpRule, ⟨["--json"], false, .asJson⟩]

def programName : Text := "destructure"

def CommandName.program (command : CommandName) : Text :=
  programName ++ ' ' :: command.label

/-- What is wrong with the arguments, and of which program or command they are. -/
structure UsageFault where
  program : Text
  cause : UsageCause
deriving DecidableEq

def UsageFault.message (fault : UsageFault) : Text :=
  fault.program ++ ": error: " ++ fault.cause.message

/-- Whether an option was chosen. -/
def Collected.has (collected : Collected Meaning) (meaning : Meaning) : Bool :=
  collected.chosen.any (·.1 == meaning)

/-- The value of an option, the last one if it was chosen several times. -/
def Collected.value? (collected : Collected Meaning) (meaning : Meaning) : Option Text :=
  (collected.chosen.reverse.find? (·.1 == meaning)).bind (·.2)

/-- The task that a command with its path and options asks for. -/
def CommandName.task (command : CommandName) (path : Text) (collected : Collected Meaning) :
    Task :=
  let input := Files.Path.ofText path
  match command with
  | .expand =>
    .expand input ((collected.value? .output).map Files.Path.ofText)
      (collected.value? .companionPrefix) (collected.has .withoutImports)
  | .check => .check input (collected.value? .companionPrefix)
  | .inspect => .inspect input (collected.has .asJson)

/-- The task that the arguments of a command ask for, or help, with what fits nowhere. -/
def CommandName.read (command : CommandName) (arguments : List Text) :
    Except UsageFault (Option Task × List Text) :=
  match parse command.rules false Meaning.final arguments with
  | .error cause => .error ⟨command.program, cause⟩
  | .ok collected =>
    if collected.has .help then .ok (none, [])
    else match collected.operand with
      | some (path :: _) => .ok (some (command.task path collected), collected.extras)
      | _ => .error ⟨command.program, .operandMissing "path"⟩

def Invocation.ofArguments (arguments : List Text) : Except UsageFault Invocation :=
  let refuse (cause : UsageCause) : Except UsageFault Invocation := .error ⟨programName, cause⟩
  match parse programRules true Meaning.final arguments with
  | .error cause => refuse cause
  | .ok collected =>
    if collected.has .version then .ok .version
    else if collected.has .help then .ok (.help programName)
    else match collected.operand with
      | some (name :: arguments) =>
        match CommandName.ofLabel? name with
        | none =>
          refuse (.unknownChoice "command" name (CommandName.all.map CommandName.label))
        | some command =>
          match command.read arguments with
          | .error fault => .error fault
          | .ok (none, _) => .ok (.help command.program)
          | .ok (some task, extras) =>
            match collected.extras ++ extras with
            | [] => .ok (.perform (collected.has .verbose) task)
            | unrecognized => refuse (.unrecognized unrecognized)
      | _ => refuse (.operandMissing "command")

end Command
end OpenRecord
