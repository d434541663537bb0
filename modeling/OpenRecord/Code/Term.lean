import OpenRecord.Code.Lines

namespace OpenRecord
namespace Code

/-!
# Emitted definitions

Generated classes and methods are first built as trees of a small language: names, attributes,
calls and string literals; assignments, calls, returns, a test for an absent value, raising, and a
clean-up that always runs.  The same trees are printed into source files and evaluated in live
sessions, so that what is said of one holds of the other.
-/

inductive Term
  | name (identifier : Text)
  | absent
  | boolean (value : Bool)
  | string (chars : Text)
  | attribute (value : Term) (identifier : Text)
  /-- A call with arguments by position, on one line. -/
  | call (function : Term) (arguments : List Term)
  /-- A call with arguments by name, each on a line of its own. -/
  | construct (function : Term) (arguments : List (Text × Term))

inductive Command
  | assign (target : Term) (value : Term)
  | evaluate (value : Term)
  | return (value : Term)
  /-- Commands that run only if a value is absent. -/
  | whenAbsent (value : Term) (body : List Command)
  | raise (value : Term)
  /-- Commands, and others that run however the first end. -/
  | finally (body : List Command) (cleanup : List Command)

/-- A parameter with the written form of its type expression, if it has one. -/
structure Parameter where
  name : Text
  type : Option Text

/-- What a decorator makes of a method. -/
inductive MethodRole
  | plain
  | ofClass
  | getter
  | setter
deriving DecidableEq

/-- A method. `result` is the written form of its result type. -/
structure Method where
  role : MethodRole
  name : Text
  parameters : List Parameter
  result : Text
  documentation : Option Text
  body : List Command

/-- A part of the body of a class. -/
inductive Member
  /-- The names of the attributes that instances have. -/
  | slots (names : List Text)
  /-- A field; a hidden one is no argument of the constructor and takes no part in comparison and
  display. -/
  | field (name : Text) (type : Text) (hidden : Bool)
  | method (method : Method)

/-- A class with the text behind its name in the header. -/
structure ClassCode where
  /-- Whether a constructor, a comparison and a display are derived from the fields. -/
  derived : Bool
  name : Text
  parameters : Text
  documentation : Text
  members : List Member

inductive Definition
  | type (code : ClassCode)
  | method (code : Method)

/-! ## Names -/

mutual

def Command.boundNames : Command → List Text
  | .assign (.name identifier) _ => [identifier]
  | .whenAbsent _ body => boundInCommands body
  | .finally body cleanup => boundInCommands body ++ boundInCommands cleanup
  | _ => []

/-- The names that consecutive commands bind. -/
def boundInCommands : List Command → List Text
  | [] => []
  | first :: later => first.boundNames ++ boundInCommands later

end

/-! ## Printing -/

def inParentheses (arguments : List Text) : Text :=
  '(' :: Text.join [',', ' '] arguments ++ [')']

mutual

/-- A term as lines, of which the first and the last may be joined to others. -/
def Term.lines : Term → List Text
  | .construct function arguments =>
    (function.line ++ ['(']) :: indent (argumentLines arguments) 1 ++ [[')']]
  | term => [term.line]

def Term.line : Term → Text
  | .name identifier => identifier
  | .absent => "None"
  | .boolean true => "True"
  | .boolean false => "False"
  | .string chars => Text.doubleMark :: chars ++ [Text.doubleMark]
  | .attribute value identifier => value.line ++ '.' :: identifier
  | .call function arguments => function.line ++ inParentheses (termLines arguments)
  | .construct function arguments => function.line ++ inParentheses (argumentLines arguments)

def termLines : List Term → List Text
  | [] => []
  | first :: later => first.line :: termLines later

def argumentLines : List (Text × Term) → List Text
  | [] => []
  | (name, value) :: later => (name ++ '=' :: value.line ++ [',']) :: argumentLines later

end

def leadWith (front : Text) : List Text → List Text
  | [] => [front]
  | first :: later => (front ++ first) :: later

mutual

def Command.lines : Command → List Text
  | .assign target value => leadWith (target.line ++ " = ") value.lines
  | .evaluate value => value.lines
  | .return value => leadWith "return " value.lines
  | .whenAbsent value body => ("if " ++ value.line ++ " is None:") :: indent (commandLines body) 1
  | .raise value => leadWith "raise " value.lines
  | .finally body cleanup =>
    ("try:" : Text) :: indent (commandLines body) 1 ++
      ("finally:" : Text) :: indent (commandLines cleanup) 1

def commandLines : List Command → List Text
  | [] => []
  | first :: later => first.lines ++ commandLines later

end

def Parameter.text (parameter : Parameter) : Text :=
  match parameter.type with
  | none => parameter.name
  | some type => parameter.name ++ ": " ++ type

def Method.decoratorLines (method : Method) : List Text :=
  match method.role with
  | .plain => []
  | .ofClass => ["@classmethod"]
  | .getter => ["@property"]
  | .setter => ["@" ++ method.name ++ ".setter"]

def Method.lines (method : Method) : List Text :=
  method.decoratorLines ++
    ("def " ++ method.name ++ inParentheses (method.parameters.map (·.text)) ++ " -> " ++
      method.result ++ ":") ::
    (match method.documentation with
      | none => []
      | some text => docstring text 1) ++
    indent (commandLines method.body) 1

/-- The lines of a part of a class. -/
def Member.lines : Member → List Text
  | .slots names =>
    ["__slots__ = (" ++ names.flatMap (fun name => (Term.string name).line ++ [',']) ++ ")"]
  | .field name type false => [name ++ ": " ++ type]
  | .field name type true =>
    [name ++ ": " ++ type ++ " = dataclasses.field(init=False, repr=False, compare=False)"]
  | .method code => code.lines

/-- The lines of the parts of a class: fields stand together, all other parts apart. -/
def memberLines : List Member → List Text
  | [] => []
  | [only] => only.lines
  | first :: .field name type hidden :: later =>
    first.lines ++ memberLines (.field name type hidden :: later)
  | first :: later => first.lines ++ [] :: memberLines later

def ClassCode.lines (code : ClassCode) : List Text :=
  (if code.derived then [("@dataclasses.dataclass" : Text)] else []) ++
    ("class " ++ code.name ++ code.parameters ++ ":") ::
    indent (docstring code.documentation 0 ++ [] :: memberLines code.members) 1

def Definition.lines : Definition → List Text
  | .type code => code.lines
  | .method code => code.lines

def Definition.text (definition : Definition) : Text :=
  emit definition.lines

end Code
end OpenRecord
