import OpenRecord.Live.Display

namespace OpenRecord
namespace Live

/-!
# Literals

A literal describes a value to be made.  Every list and every mapping in it is made anew each time,
and a variable stands for the value that the session has for it.
-/

inductive Literal
  | absent
  | boolean (value : Bool)
  | whole (value : Int)
  | decimal (value : Decimal)
  | text (chars : Text)
  | list (items : List Literal)
  | mapping (members : List (Text × Literal))
  | variable (name : Text)

def variableValue (name : Text) : Action Value := do
  let session ← get
  match session.held.get? name with
  | some value => return value
  | none => fail (.unknownVariable name)

mutual

def Literal.make : Literal → Action Value
  | .absent => return .absent
  | .boolean value => return .boolean value
  | .whole value => return .whole value
  | .decimal value => return .decimal value
  | .text chars => return .text chars
  | .list items => do
    let values ← makeAll items
    allocate (.list values)
  | .mapping members => do
    let values ← makeMembers members
    allocate (.mapping values)
  | .variable name => variableValue name

def makeAll : List Literal → Action (List Value)
  | [] => return []
  | first :: later => do
    let value ← first.make
    let values ← makeAll later
    return value :: values

def makeMembers : List (Text × Literal) → Action (List (Text × Value))
  | [] => return []
  | (name, first) :: later => do
    let value ← first.make
    let values ← makeMembers later
    return (name, value) :: values

end

mutual

def Literal.written : Literal → Text
  | .absent => "None"
  | .boolean true => "True"
  | .boolean false => "False"
  | .whole value => Location.number value
  | .decimal value => decimalText value
  | .text chars => Text.quoted chars
  | .list items => '[' :: Text.join ", " (writtenAll items) ++ [']']
  | .mapping members => '\x7b' :: Text.join ", " (writtenMembers members) ++ ['\x7d']
  | .variable name => name

/-- Several literals as expressions. -/
def writtenAll : List Literal → List Text
  | [] => []
  | first :: later => first.written :: writtenAll later

/-- Several literals with names as expressions. -/
def writtenMembers : List (Text × Literal) → List Text
  | [] => []
  | (name, first) :: later => (Text.quoted name ++ ": " ++ first.written) :: writtenMembers later

end

end Live
end OpenRecord
