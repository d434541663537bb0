import OpenRecord.Text.Basic

namespace OpenRecord

/-!
# Locations

A diagnostic says where it arose.  Each part of a location may be unknown; lines are counted from one
and columns from nought.
-/

/-- A place in a source file, as far as it is known. -/
structure Location where
  filename : Option Text
  line : Option Int
  column : Option Int
deriving DecidableEq

namespace Location

/-- A whole number in decimal digits. -/
def number : Int → Text
  | .ofNat n => Text.decimal n
  | .negSucc n => '-' :: Text.decimal (n + 1)

/-- The parts that are known, joined by colons.  A column without a line is not shown, and an empty
filename counts as none. -/
def text (location : Location) : Text :=
  let file : Text :=
    match location.filename with
    | none => "<unknown>"
    | some [] => "<unknown>"
    | some name => name
  match location.line, location.column with
  | none, _ => file
  | some line, none => file ++ ':' :: number line
  | some line, some column => file ++ ':' :: number line ++ ':' :: number column

end Location
end OpenRecord
