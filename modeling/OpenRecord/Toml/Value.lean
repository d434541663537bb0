import OpenRecord.Decimal

namespace OpenRecord
namespace Toml

/-!
# Values of a configuration file

A configuration file denotes a table of named values, which may be tables again.  Dates and times
are recognised, but nothing is kept of them beyond their kind.
-/

/-- A value of a configuration file. -/
inductive Value
  | string (text : Text)
  | integer (value : Int)
  | decimal (value : Decimal)
  /-- An infinity, or no number. -/
  | extreme
  | boolean (value : Bool)
  | dateTime
  | date
  | time
  | array (items : List Value)
  | table (members : List (Text × Value))

/-- A table is the list of its members; no two of them have one name. -/
abbrev Table := List (Text × Value)

namespace Value

def typeName : Value → Text
  | .string _ => "str"
  | .integer _ => "int"
  | .decimal _ => "float"
  | .extreme => "float"
  | .boolean _ => "bool"
  | .dateTime => "datetime.datetime"
  | .date => "datetime.date"
  | .time => "datetime.time"
  | .array _ => "list"
  | .table _ => "dict"

end Value

namespace Table

/-- The member of a given name. -/
def get? (table : Table) (name : Text) : Option Value :=
  (table.find? (·.1 == name)).map (·.2)

/-- The table with a member replaced, or with a new one at its end. -/
def put (table : Table) (name : Text) (value : Value) : Table :=
  if table.any (·.1 == name) then
    table.map fun member => if member.1 = name then (name, value) else member
  else table ++ [(name, value)]

/-- Change the table behind a path, creating the tables on the way that are missing.  If asked to,
the path goes through an array to its last item.  There is no result if the path meets a value that
is no table, or if the change has none. -/
def modify (throughArrays : Bool) (change : Table → Option Table) :
    List Text → Table → Option Table
  | [], table => change table
  | name :: path, table =>
    match get? table name with
    | none =>
      match modify throughArrays change path [] with
      | none => none
      | some inner => some (table.put name (.table inner))
    | some (.table members) =>
      match modify throughArrays change path members with
      | none => none
      | some inner => some (table.put name (.table inner))
    | some (.array items) =>
      match throughArrays, items.reverse with
      | true, .table members :: earlier =>
        match modify throughArrays change path members with
        | none => none
        | some inner => some (table.put name (.array (earlier.reverse ++ [.table inner])))
      | _, _ => none
    | some _ => none

/-- Add a member to a table that has none of its name. -/
def insertNew (name : Text) (value : Value) (table : Table) : Option Table :=
  match get? table name with
  | none => some (table ++ [(name, value)])
  | some _ => none

/-- Add an empty table to the end of an array, or an array of one. -/
def appendTable (name : Text) (table : Table) : Option Table :=
  match get? table name with
  | none => some (table ++ [(name, .array [.table []])])
  | some (.array items) => some (table.put name (.array (items ++ [.table []])))
  | some _ => none

/-- A member that was put into a table is found there. -/
theorem get?_insertNew {name : Text} {value : Value} {table result : Table}
    (h : insertNew name value table = some result) : get? result name = some value := by
  unfold insertNew at h
  split at h
  · rename_i missing
    cases h
    simp only [get?, Option.map_eq_none_iff] at missing
    simp [get?, List.find?_append, missing]
  · cases h

end Table
end Toml
end OpenRecord
