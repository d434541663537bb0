import OpenRecord.Live.Session

namespace OpenRecord
namespace Live

/-!
# Special methods derived from fields

An initialiser, a comparison and a display are derived from the fields of a class and of its
ancestors.  On demand a guard is added that refuses all later writes, and the fields become the
only attributes that objects can have.
-/

/-- What is wanted besides the derived methods. -/
structure DerivationStyle where
  frozen : Bool
  slotted : Bool
deriving DecidableEq

/-- The nearest attribute of a name in a class that is being built and its ancestors. -/
def attributeWhileBuilt (session : Session) (live : LiveType) (name : Text) : Option Attribute :=
  (live.attributes.get? name).or <|
    live.ancestors.findSome? fun index =>
      (session.types[index]?).bind (·.attributes.get? name)

/-- The name under which every class answers its line of ancestors, unless it has something else
there. -/
def lineName : Text := "mro"

/-- What is found there in a class that has nothing else. -/
def lineMethod : Value := .facility (.other "builtin_function_or_method")

/-- The default of a field: what the class has under its name. -/
def fieldDefault (session : Session) (live : LiveType) (name : Text) : Option Value :=
  match attributeWhileBuilt session live name with
  | some (.value (.facility .fieldMark)) => none
  | some (.value value) => some value
  | some .slot => none
  | some (.property _ _) => some (.facility (.other "property"))
  | some _ => some (.facility (.other "function"))
  | none => if name = lineName then some lineMethod else none

/-- The fields of the ancestors, with the nearest ones replacing those of the same name. -/
def inheritedFields (session : Session) (ancestors : List Nat) : NameTable RecordField :=
  ancestors.reverse.foldl
    (fun table index =>
      match (session.types[index]?).bind (·.fields) with
      | some fields => table.putAll (fields.map fun field => (field.name, field))
      | none => table)
    .empty

/-- The first field whose default could be changed, with the type of the default. -/
def mutableDefault? (session : Session) (fields : List RecordField) : Option Failure :=
  fields.findSome? fun field =>
    match field.default with
    | some (.cell address) =>
      if field.initOnly then none
      else some (.mutableDefault (session.typeName (.cell address)) field.name)
    | _ => none

/-- The first field without a default behind one that has it, among those given by position. -/
def missingDefault? (seen : Bool) : List RecordField → Option Failure
  | [] => none
  | field :: later =>
    if field.hidden || field.keywordOnly then missingDefault? seen later
    else if field.default.isSome then missingDefault? true later
    else if seen then some (.missingDefault field.name)
    else missingDefault? seen later

def ancestorProblem? (session : Session) (style : DerivationStyle) (ancestors : List Nat) :
    Option Failure :=
  let derived := (ancestors.filterMap (session.types[·]?)).filter (·.fields.isSome)
  if derived.isEmpty then none
  else if derived.any (·.frozen) then if style.frozen then none else some .frozenBase
  else if style.frozen then some .unfrozenBase
  else none

/-- The attribute unless the class has one of that name. -/
def putUnlessThere (attributes : NameTable Attribute) (name : Text) (added : Attribute) :
    NameTable Attribute :=
  if attributes.contains name then attributes else attributes.put name added

/-- The attributes of a class without the marks of its fields. -/
def withoutMarks (attributes : NameTable Attribute) : NameTable Attribute :=
  ⟨attributes.entries.filter fun entry => entry.2 != .value (.facility .fieldMark)⟩

/-- Add the derived methods to the attributes of a class. -/
def derivedAttributes (style : DerivationStyle) (fields : List RecordField)
    (attributes : NameTable Attribute) : NameTable Attribute :=
  let kept := fields.filter (!·.initOnly)
  let compared := (kept.filter (!·.hidden)).map (·.name)
  let basic := putUnlessThere (putUnlessThere (putUnlessThere (withoutMarks attributes)
    "__init__" (.initializer fields style.frozen))
    "__repr__" (.display compared))
    "__eq__" (.comparison compared)
  if style.frozen then basic.put "__setattr__" (.guard (kept.map (·.name)) style.slotted)
  else basic

/-- Give a class slots for its fields, as far as no ancestor has them. -/
def withFieldSlots (session : Session) (fields : List RecordField) (live : LiveType) : LiveType :=
  let names := (fields.filter (!·.initOnly)).map (·.name)
  let inherited := live.ancestors.flatMap fun index =>
    ((session.types[index]?).bind (·.slots)).getD []
  let own := names.filter fun name => !inherited.contains name
  let attributes := (live.attributes.without names).putAll (own.map fun name => (name, .slot))
  { live with
    slots := some own
    attributes :=
      if live.frozen then putUnlessThere attributes "__setstate__" (.transfer names)
      else attributes }

/-- Classes from outside whose objects vary in size. -/
def sizedBases : List Text :=
  ["tuple", "int", "bytes"]

/-- Whether a class comes from one whose objects vary in size. -/
def isSized (live : LiveType) : Bool :=
  match live.foreignBase with
  | some base => sizedBases.contains base
  | none => false

/-- The base class for which a class cannot have slots. -/
def sizedBase? (session : Session) (live : LiveType) : Option Text :=
  if isSized live then live.foreignBase
  else
    let ancestors := live.ancestors.filterMap (session.types[·]?)
    if ancestors.any isSized then ancestors.head?.map (·.name) else none

/-- The class, if it can have the slots that it lists. -/
def checkSlots (session : Session) (live : LiveType) : Except Failure LiveType :=
  match sizedBase? session live, live.slots with
  | some base, some (_ :: _) => .error (.slotsRefused base)
  | _, _ => .ok live

/-- A class with methods derived from its declared fields. -/
def deriveMethods (session : Session) (style : DerivationStyle) (declared : List RecordField)
    (live : LiveType) : Except Failure LiveType := do
  let own := declared.map fun field =>
    { field with default := fieldDefault session live field.name }
  if let some failure := mutableDefault? session own then throw failure
  if let some failure := ancestorProblem? session style live.ancestors then throw failure
  let fields := ((inheritedFields session live.ancestors).putAll
    (own.map fun field => (field.name, field))).entries.map (·.2)
  if let some failure := missingDefault? false fields then throw failure
  if style.frozen && live.attributes.contains "__setattr__" then throw (.guardTaken live.name)
  let derived :=
    { live with
      fields := some fields
      frozen := style.frozen
      attributes := derivedAttributes style fields live.attributes }
  if style.slotted then
    if live.slots.isSome then throw (.slotsTwice live.name)
    checkSlots session (withFieldSlots session fields derived)
  else return derived

end Live
end OpenRecord
