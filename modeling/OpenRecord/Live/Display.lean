import OpenRecord.Live.Call

namespace OpenRecord
namespace Live

/-!
# Showing, writing and comparing values

A value is *shown* as data, *written* as an expression and *compared* by what it holds; objects are
written and compared by their fields only if their class derives this from its fields.  Values can
hold each other in circles, so that each of the three is bounded by a depth.
-/

/-! ## Shown values -/

def shownUpTo (session : Session) : Nat → Value → Shown
  | _, .absent => .absent
  | _, .boolean value => .boolean value
  | _, .whole value => .whole value
  | _, .decimal value => .decimal value
  | _, .text chars => .text chars
  | depth + 1, .cell address =>
    match session.cells[address]? with
    | some (.list items) => .list (items.map (shownUpTo session depth))
    | some (.mapping members) =>
      .mapping (members.map fun (name, value) => (name, shownUpTo session depth value))
    | _ => .other (session.typeName (.cell address))
  | _, value => .other (session.typeName value)

def shown (session : Session) (value : Value) : Shown :=
  shownUpTo session (session.cells.length + 1) value

/-! ## Written values -/

def decimalText (value : Decimal) : Text :=
  let sign : Text := if value.negative then ['-'] else []
  let digits := Text.decimal value.digits
  let places := (-value.exponent).toNat
  let padded := List.replicate (places + 1 - digits.length) '0' ++ digits
  sign ++ padded.take (padded.length - places) ++ '.' ::
    (if places = 0 then ['0'] else padded.drop (padded.length - places))

/-- What stands for a value inside itself. -/
def ellipsis : Text := "..."

/-- An attribute that an object has without running code. -/
def plainAttribute? (session : Session) (address type : Nat) (name : Text) : Option Value :=
  (session.own? address name).or <|
    match session.attribute? type name with
    | some (.value value) => some (boundTo (.cell address) type value)
    | _ => none

/-- Attributes of an object, or the first one that it lacks. -/
def plainAttributes (session : Session) (address type : Nat) (names : List Text) :
    Except Failure (List Value) :=
  names.mapM fun name =>
    match plainAttribute? session address type name with
    | some value => .ok value
    | none => .error (.noAttribute (session.nameOf type) name)

/-- A value as an expression, up to a depth and inside the values of some cells. -/
def writtenUpTo (session : Session) : Nat → List Nat → Value → Except Failure Text
  | _, _, .absent => .ok "None"
  | _, _, .boolean true => .ok "True"
  | _, _, .boolean false => .ok "False"
  | _, _, .whole value => .ok (Location.number value)
  | _, _, .decimal value => .ok (decimalText value)
  | _, _, .text chars => .ok (Text.quoted chars)
  | depth + 1, around, .cell address => do
    let within := writtenUpTo session depth (address :: around)
    match session.cells[address]? with
    | some (.list items) =>
      if around.contains address then return '[' :: ellipsis ++ [']']
      let texts ← items.mapM within
      return '[' :: Text.join ", " texts ++ [']']
    | some (.mapping members) =>
      if around.contains address then return '\x7b' :: ellipsis ++ ['\x7d']
      let texts ← members.mapM fun (name, value) => do
        let text ← within value
        return Text.quoted name ++ ": " ++ text
      return '\x7b' :: Text.join ", " texts ++ ['\x7d']
    | some (.object type _) =>
      match session.attribute? type "__repr__" with
      | some (.display names) =>
        if around.contains address then return ellipsis
        let values ← plainAttributes session address type names
        let texts ← (names.zip values).mapM fun (name, value) => do
          let text ← within value
          return name ++ '=' :: text
        return session.qualifiedNameOf type ++ '(' :: Text.join ", " texts ++ [')']
      | _ => return '<' :: moduleName ++ '.' :: session.qualifiedNameOf type ++ " object>"
    | none => throw .tooDeep
  | 0, _, .cell _ => .error .tooDeep
  | _, _, .type index => .ok (session.written index)
  | _, _, value => .ok ('<' :: session.typeName value ++ ['>'])

def written (session : Session) (value : Value) : Except Failure Text :=
  writtenUpTo session maximalDepth [] value

/-! ## Comparison -/

/-- A number as a quotient; truth values count as one and zero. -/
def quotient? : Value → Option (Int × Nat)
  | .boolean value => some (if value then 1 else 0, 1)
  | .whole value => some (value, 1)
  | .decimal value =>
    let digits : Int := if value.negative then -value.digits else value.digits
    some (digits * Decimal.powerOfTen value.exponent.toNat,
      Decimal.powerOfTen (-value.exponent).toNat)
  | _ => none

/-- Compare pairs up to the first difference.  Equal values without a comparison of their own are
not looked into. -/
def allEqual (compare : Value → Value → Except Failure Bool) :
    List (Value × Value) → Except Failure Bool
  | [] => .ok true
  | (left, right) :: later =>
    if left = right then allEqual compare later
    else do
      if ← compare left right then allEqual compare later else return false

def equalUpTo (session : Session) : Nat → Value → Value → Except Failure Bool
  | 0, _, _ => .error .tooDeep
  | depth + 1, left, right =>
    match quotient? left, quotient? right with
    | some (a, b), some (c, d) => .ok (a * d == c * b)
    | _, _ =>
      match left, right with
      | .cell first, .cell second =>
        match session.cells[first]?, session.cells[second]? with
        | some (.list left), some (.list right) =>
          if left.length = right.length then
            allEqual (equalUpTo session depth) (left.zip right)
          else .ok false
        | some (.mapping left), some (.mapping right) =>
          let pairs := left.filterMap fun (name, value) =>
            (lookupName name right).map (value, ·)
          if left.length = right.length && pairs.length = left.length then
            allEqual (equalUpTo session depth) pairs
          else .ok false
        | some (.object leftType _), some (.object rightType _) =>
          match session.attribute? leftType "__eq__", leftType == rightType with
          | some (.comparison names), true => do
            let left ← plainAttributes session first leftType names
            let right ← plainAttributes session second rightType names
            allEqual (equalUpTo session depth) (left.zip right)
          | _, _ => .ok (first == second)
        | _, _ => .ok false
      | _, _ => .ok (left == right)

def equal (session : Session) (left right : Value) : Except Failure Bool :=
  equalUpTo session maximalDepth left right

/-! ## Objects in full -/

def shownOutcome (session : Session) : Except Fault Value → Except Fault Shown
  | .ok value => .ok (shown session value)
  | .error fault => .error fault

/-- The names of the properties of a class and its ancestors. -/
def propertyNames (session : Session) (type : Nat) : List Text :=
  ((session.lineage type).flatMap fun index =>
    match session.types[index]? with
    | some live => live.attributes.entries.filterMap fun (name, found) =>
        match found with
        | .property _ _ => some name
        | _ => none
    | none => []).eraseDups

/-- What each of several properties yields. -/
def readProperties (target : Value) : List Text → Action (List (Text × Except Fault Shown))
  | [] => return []
  | name :: later => do
    let outcome ←
      tryCatch (Except.ok <$> readAttribute callAlone target name)
        fun fault => return Except.error fault
    let session ← get
    let others ← readProperties target later
    return (name, shownOutcome session outcome) :: others

def dump (target : Value) : Action Dump := do
  let session ← get
  let typeName := session.typeName target
  match target with
  | .cell address =>
    match session.cells[address]? with
    | some (.object type attributes) =>
      match propertyNames session type with
      | [] =>
        return .attributes typeName <|
          attributes.map fun (name, value) => (name, shown session value)
      | names => .view typeName <$> readProperties target names
    | _ => return .attributes typeName []
  | _ => return .attributes typeName []

end Live
end OpenRecord
