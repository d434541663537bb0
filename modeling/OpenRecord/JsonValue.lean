import OpenRecord.Location
import OpenRecord.Text.Quoted

namespace OpenRecord

/-!
# JSON documents

Values are written over several lines, two more spaces for every level, with the members of an
object in the order in which they are given.  Strings are written with printable characters of the
first 128 alone; all others are escaped as one or two units of sixteen bits.
-/

inductive JsonValue
  | null
  | boolean (value : Bool)
  | number (value : Int)
  | string (text : Text)
  | array (items : List JsonValue)
  | object (members : List (Text × JsonValue))

namespace JsonValue

/-- A unit of sixteen bits, escaped. -/
def unit (n : Nat) : Text :=
  '\x5c' :: 'u' :: Text.hexDigits 4 n

/-- A character in a string. -/
def escape (c : Char) : Text :=
  if c = '\x22' ∨ c = '\x5c' then ['\x5c', c]
  else if c = '\n' then ['\x5c', 'n']
  else if c = '\r' then ['\x5c', 'r']
  else if c = '\t' then ['\x5c', 't']
  else if c = '\x08' then ['\x5c', 'b']
  else if c = '\x0c' then ['\x5c', 'f']
  else
    let n := c.toNat
    if 32 ≤ n ∧ n < 127 then [c]
    else if n < 0x10000 then unit n
    else unit (0xD800 + (n - 0x10000) / 0x400) ++ unit (0xDC00 + (n - 0x10000) % 0x400)

/-- A string between quotation marks. -/
def quote (t : Text) : Text :=
  '\x22' :: t.flatMap escape ++ ['\x22']

/-- A line end and the spaces before a line of some level. -/
def newLine (level : Nat) : Text :=
  '\n' :: List.replicate (2 * level) ' '

mutual

def print (level : Nat) : JsonValue → Text
  | .null => "null"
  | .boolean true => "true"
  | .boolean false => "false"
  | .number value => Location.number value
  | .string text => quote text
  | .array [] => "[]"
  | .array (first :: later) =>
    '[' :: newLine (level + 1) ++ print (level + 1) first ++ printItems (level + 1) later ++
      newLine level ++ [']']
  | .object [] => ['\x7b', '\x7d']
  | .object (first :: later) =>
    '\x7b' :: newLine (level + 1) ++ printMember (level + 1) first ++
      printMembers (level + 1) later ++ newLine level ++ ['\x7d']

def printItems (level : Nat) : List JsonValue → Text
  | [] => []
  | first :: later => ',' :: newLine level ++ print level first ++ printItems level later

def printMember (level : Nat) : Text × JsonValue → Text
  | (name, value) => quote name ++ ':' :: ' ' :: print level value

def printMembers (level : Nat) : List (Text × JsonValue) → Text
  | [] => []
  | first :: later =>
    ',' :: newLine level ++ printMember level first ++ printMembers level later

end

def text (value : JsonValue) : Text :=
  value.print 0

def ofText? : Option Text → JsonValue
  | none => .null
  | some text => .string text

def ofNumber? : Option Int → JsonValue
  | none => .null
  | some value => .number value

end JsonValue
end OpenRecord
