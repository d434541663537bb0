import OpenRecord.Capability
import OpenRecord.Location

namespace OpenRecord

/-!
# Record models

A record model is the syntactic description of a record class: its fields in textual order, its
generic parameters as they are written, the capabilities it requests and the other names its body
binds.  Type expressions are kept as text and never looked into again.
-/

/-- What the underscores of a field name say about it. -/
inductive Visibility
  | isPublic
  | isPrivate
  | mangled
  | special
deriving DecidableEq

def Visibility.label : Visibility → Text
  | .isPublic => "public"
  | .isPrivate => "private"
  | .mangled => "mangled"
  | .special => "special"

/-- Two underscores, at the ends of special names. -/
def dunder : Text := ['_', '_']

/-- The visibility of a field of a given name. -/
def Visibility.ofName (name : Text) : Visibility :=
  if dunder.isPrefixOf name && dunder.isSuffixOf name then .special
  else if dunder.isPrefixOf name then .mangled
  else if ['_'].isPrefixOf name then .isPrivate
  else .isPublic

/-- A declared field. `skip` keeps it out of the constructor and the views of the companion. -/
structure Field where
  name : Text
  declaredType : Text
  order : Nat
  visibility : Visibility
  skip : Bool
deriving DecidableEq

/-- How a class declares its generic parameters. -/
inductive GenericStyle
  | none
  | typeParameters
  | genericBase
deriving DecidableEq

def GenericStyle.label : GenericStyle → Text
  | .none => "none"
  | .typeParameters => "type_params"
  | .genericBase => "generic_base"

/-- A generic parameter: the text that applies it and the text that declares it. -/
structure GenericParameter where
  name : Text
  declaration : Text
deriving DecidableEq

/-- The description of a record class. -/
structure RecordModel where
  typeName : Text
  genericStyle : GenericStyle
  genericParameters : List GenericParameter
  /-- The base that declares the generic parameters, if the style says so. -/
  genericBase : Option Text
  fields : List Field
  capabilities : Capabilities
  memberNames : List Text
  location : Option Location
deriving DecidableEq

namespace RecordModel

def fieldNames (model : RecordModel) : List Text :=
  model.fields.map (·.name)

/-- The fields that views and the companion constructor show. -/
def exposedFields (model : RecordModel) : List Field :=
  model.fields.filter (!·.skip)

def requests (model : RecordModel) (capability : Capability) : Bool :=
  model.capabilities.contains capability

def withCapability (model : RecordModel) (capability : Capability) : RecordModel :=
  { model with capabilities := model.capabilities.insert capability }

/-- A type name applied to the generic parameters of the model. -/
def applyGenerics (model : RecordModel) (name : Text) : Text :=
  match model.genericParameters with
  | [] => name
  | parameters =>
    name ++ '[' :: Text.join [',', ' '] (parameters.map (·.name)) ++ [']']

/-- Whether a view type is generated. -/
def hasView (model : RecordModel) : Bool :=
  model.requests .mutation || model.requests .destructureRef

theorem requests_withCapability (model : RecordModel) (new other : Capability) :
    (model.withCapability new).requests other = (decide (other = new) || model.requests other) :=
  Capabilities.contains_insert model.capabilities new other

end RecordModel

/-- The companion of a record, in which every field is public. -/
structure CompanionModel where
  name : Text
  recordName : Text
  genericParameters : List GenericParameter
  fields : List Field
deriving DecidableEq

end OpenRecord
