import OpenRecord.Capability
import OpenRecord.Location

namespace OpenRecord

/-!
# Diagnostics

Everything that can be wrong with a record class is a *cause*.  A diagnostic attaches a cause to a
class and a place.  The wording of a cause is decided by one function, and its kind by another.
-/

inductive DiagnosticKind
  /-- Any diagnostic of which nothing more is said. -/
  | general
  | unsupportedShape
  | missingCapability
  | namingCollision
  | sourceUnavailable
  | generation
deriving DecidableEq

/-- The name of a kind as it stands in a formatted diagnostic. -/
def DiagnosticKind.label : DiagnosticKind → Text
  | .general => "DestructureError"
  | .unsupportedShape => "UnsupportedShape"
  | .missingCapability => "MissingDestructureCapability"
  | .namingCollision => "NamingCollision"
  | .sourceUnavailable => "SourceUnavailable"
  | .generation => "GenerationError"

def DiagnosticKind.ofLabel? (label : Text) : Option DiagnosticKind :=
  ([.general, .unsupportedShape, .missingCapability, .namingCollision, .sourceUnavailable,
    .generation] : List DiagnosticKind).find? (·.label == label)

/-- Classes that have no named fields of their own. -/
inductive Shape
  | enumeration
  | tuple
  | mapping
deriving DecidableEq

def Shape.description : Shape → Text
  | .enumeration => "an enum"
  | .tuple => "a tuple-style class"
  | .mapping => "a TypedDict mapping"

/-- What can be wrong with a record class. -/
inductive Cause
  /-- A statement of some kind stands where a class is expected. -/
  | notAClass (found : Text)
  | noFields
  | unsupportedBase (shape : Shape) (base : Text)
  | noClassNamed (name : Text)
  | noClass
  | nestedInClass
  | functionDecorated
  /-- A capability was applied to a value of some type, which is no class. -/
  | appliedToValue (capability : Capability) (type : Text)
  | mutationAlone
  | duplicateField (field : Text)
  | specialField (field : Text)
  | mangledField (field : Text)
  | fieldNamedLikeType (field : Text)
  | fieldNamedLikeMethod (field : Text)
  | fieldReserved (field : Text)
  | memberReplaced (member : Text)
  | typeNameTaken (type : Text)
  | sourceUnreadable (reason : Text)
  /-- Emitted code of some kind and name is no statement. -/
  | malformedArtifact (kind : Text) (name : Text)
  /-- A cause that is known by its words only. -/
  | stated (kind : DiagnosticKind) (words : Text)
deriving DecidableEq

namespace Cause

def kind : Cause → DiagnosticKind
  | .notAClass _ => .unsupportedShape
  | .noFields => .unsupportedShape
  | .unsupportedBase _ _ => .unsupportedShape
  | .noClassNamed _ => .unsupportedShape
  | .noClass => .unsupportedShape
  | .nestedInClass => .unsupportedShape
  | .functionDecorated => .unsupportedShape
  | .appliedToValue _ _ => .unsupportedShape
  | .mutationAlone => .missingCapability
  | .duplicateField _ => .namingCollision
  | .specialField _ => .namingCollision
  | .mangledField _ => .namingCollision
  | .fieldNamedLikeType _ => .namingCollision
  | .fieldNamedLikeMethod _ => .namingCollision
  | .fieldReserved _ => .namingCollision
  | .memberReplaced _ => .namingCollision
  | .typeNameTaken _ => .namingCollision
  | .sourceUnreadable _ => .sourceUnavailable
  | .malformedArtifact _ _ => .generation
  | .stated kind _ => kind

/-- A name in single quotation marks. -/
def quotedName (name : Text) : Text :=
  '\x27' :: name ++ ['\x27']

def message : Cause → Text
  | .notAClass found => "expected a class definition, got " ++ found
  | .noFields => "declares no fields; unit-like classes have nothing to destructure"
  | .unsupportedBase shape base =>
    "is " ++ shape.description ++ " (base " ++ quotedName base ++
      "); only named-field record classes are supported"
  | .noClassNamed name => "no class named " ++ quotedName name ++ " found"
  | .noClass => "no class definition found"
  | .nestedInClass =>
    "is nested in a class body; use the runtime decorators or move it to module level"
  | .functionDecorated => "capability decorators apply to classes only"
  | .appliedToValue capability type =>
    "@" ++ capability.label ++ " applies to classes only, got " ++ type
  | .mutationAlone =>
    "'mutation' requires 'destructure' on the same class; reconstruct() and substitute() " ++
      ("are defined in terms of the companion type" : Text)
  | .duplicateField field => "duplicate field " ++ quotedName field
  | .specialField field => "field " ++ quotedName field ++ " uses a reserved special name"
  | .mangledField field =>
    "field " ++ quotedName field ++
      " is name-mangled and would resolve differently inside generated types"
  | .fieldNamedLikeType field =>
    "field " ++ quotedName field ++ " collides with the generated type of the same name"
  | .fieldNamedLikeMethod field =>
    "field " ++ quotedName field ++ " collides with generated method " ++
      quotedName (field ++ ['(', ')'])
  | .fieldReserved field =>
    "field " ++ quotedName field ++ " is reserved by the generated view types"
  | .memberReplaced member =>
    "class already defines " ++ quotedName member ++
      ", which would be replaced by a generated method"
  | .typeNameTaken type =>
    "generated type " ++ quotedName type ++ " collides with an existing name in the same scope"
  | .sourceUnreadable reason =>
    "could not read the class definition (" ++ reason ++
      "); use 'destructure expand' to generate the code ahead of time"
  | .malformedArtifact kind name =>
    "generated " ++ kind ++ " " ++ quotedName name ++
      " is not valid Python: the text is not a single statement"
  | .stated _ words => words

end Cause

/-- A cause attached to a class and a place, as far as they are known. -/
structure Diagnostic where
  cause : Cause
  typeName : Option Text
  location : Option Location
deriving DecidableEq

namespace Diagnostic

/-- The diagnostic at a place, unless it has one already. -/
def located (diagnostic : Diagnostic) (location : Option Location) : Diagnostic :=
  match diagnostic.location with
  | none => { diagnostic with location }
  | some _ => diagnostic

/-- The diagnostic on one line: place, kind, class and words.  An empty class name is not shown. -/
def format (diagnostic : Diagnostic) : Text :=
  let place : Text :=
    match diagnostic.location with
    | none => []
    | some location => location.text ++ ": "
  let subject : Text :=
    match diagnostic.typeName with
    | none => []
    | some [] => []
    | some name => name ++ ": "
  place ++ "[" ++ diagnostic.cause.kind.label ++ "] " ++ subject ++ diagnostic.cause.message

theorem located_location (diagnostic : Diagnostic) (location : Option Location) :
    (diagnostic.located location).location = diagnostic.location.or location := by
  unfold located
  split <;> simp_all

end Diagnostic
end OpenRecord
