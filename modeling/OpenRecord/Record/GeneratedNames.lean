import OpenRecord.Diagnostic
import OpenRecord.Record.Basic
import OpenRecord.Settings

namespace OpenRecord

/-!
# Names of generated definitions

Generated type names are the type name between a prefix and, for views, a suffix.  A model is
checked against the names that its capabilities bring in before anything is generated from it; the
first clash that is found is reported.
-/

def companionName (typeName : Text) (settings : Settings) : Text :=
  settings.companionPrefix ++ typeName

def mutationViewName (typeName : Text) (settings : Settings) : Text :=
  companionName typeName settings ++ settings.mutationSuffix

def referenceViewName (typeName : Text) (settings : Settings) : Text :=
  companionName typeName settings ++ settings.viewSuffix

def Capability.typeName (settings : Settings) (typeName : Text) : Capability → Text
  | .destructure => companionName typeName settings
  | .mutation => mutationViewName typeName settings
  | .destructureRef => referenceViewName typeName settings

def Capability.methodNames : Capability → List Text
  | .destructure => ["into_destruct", "from_destruct"]
  | .mutation => ["reconstruct", "substitute"]
  | .destructureRef => ["as_destruct"]

/-- The attribute of a view that holds the viewed record. -/
def viewTarget : Text := "_target"

/-- The names that the body of a view uses for itself. -/
def viewReservedNames : List Text :=
  [viewTarget, "property"]

namespace RecordModel

/-- The requested capabilities in the order of emission. -/
def requested (model : RecordModel) : List Capability :=
  Capability.all.filter model.requests

def generatedTypeNames (model : RecordModel) (settings : Settings) : List Text :=
  model.requested.map (·.typeName settings model.typeName)

def generatedMethodNames (model : RecordModel) : List Text :=
  model.requested.flatMap (·.methodNames)

end RecordModel

/-! ## Clashes -/

/-- The first name that stands in a list for the second time. -/
def firstDuplicate (seen : List Text) : List Text → Option Text
  | [] => none
  | name :: later =>
    if seen.contains name then some name else firstDuplicate (name :: seen) later

/-- A field name with the underscores that change its meaning inside another class. -/
def reservedSpelling (name : Text) : Option Cause :=
  match Visibility.ofName name with
  | .special => some (.specialField name)
  | .mangled => some (.mangledField name)
  | _ => none

/-- A field name that the generated definitions use. -/
def fieldClash (model : RecordModel) (settings : Settings) (name : Text) : Option Cause :=
  if (model.generatedTypeNames settings).contains name then some (.fieldNamedLikeType name)
  else if model.generatedMethodNames.contains name then some (.fieldNamedLikeMethod name)
  else if model.hasView && viewReservedNames.contains name then some (.fieldReserved name)
  else none

/-- The first clash of a model: fields among themselves, their spelling, fields and generated names,
members and generated methods, and generated types and the names of the scope if it is known. -/
def RecordModel.firstClash (model : RecordModel) (settings : Settings)
    (scope : Option (List Text)) : Option Cause :=
  ((firstDuplicate [] model.fieldNames).map Cause.duplicateField).or <|
  (model.fieldNames.findSome? reservedSpelling).or <|
  (model.fieldNames.findSome? (fieldClash model settings)).or <|
  ((model.memberNames.find? model.generatedMethodNames.contains).map Cause.memberReplaced).or <|
  (((model.generatedTypeNames settings).find? (scope.getD []).contains).map Cause.typeNameTaken)

def RecordModel.checkNames (model : RecordModel) (settings : Settings)
    (scope : Option (List Text)) : Except Diagnostic Unit :=
  match model.firstClash settings scope with
  | some cause => .error ⟨cause, some model.typeName, model.location⟩
  | none => .ok ()

end OpenRecord
