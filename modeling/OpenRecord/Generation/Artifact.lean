import OpenRecord.Capability
import OpenRecord.Code.Term
import OpenRecord.Record.Basic

namespace OpenRecord

/-!
# Artifacts

An artifact is one generated definition together with the class it belongs to.  Its kind decides
which capability it comes from and whether it is a statement beside the class or a method in it.
-/

/-- The kinds of generated definitions. -/
inductive ArtifactKind
  | companionType
  | conversion
  | restore
  | reconstruct
  | substitute
  | mutationView
  | referenceView
  | asDestruct
deriving DecidableEq

/-- Where a generated definition is put. -/
inductive Placement
  | besideClass
  | inClass
deriving DecidableEq

def Placement.label : Placement → Text
  | .besideClass => "module"
  | .inClass => "class_body"

namespace ArtifactKind

def label : ArtifactKind → Text
  | .companionType => "companion_type"
  | .conversion => "conversion"
  | .restore => "restore"
  | .reconstruct => "reconstruct"
  | .substitute => "substitute"
  | .mutationView => "mutation_view"
  | .referenceView => "reference_view"
  | .asDestruct => "as_destruct"

/-- Types stand beside the class, methods in it. -/
def placement : ArtifactKind → Placement
  | .companionType => .besideClass
  | .mutationView => .besideClass
  | .referenceView => .besideClass
  | _ => .inClass

def capability : ArtifactKind → Capability
  | .companionType => .destructure
  | .conversion => .destructure
  | .restore => .destructure
  | .mutationView => .mutation
  | .reconstruct => .mutation
  | .substitute => .mutation
  | .referenceView => .destructureRef
  | .asDestruct => .destructureRef

end ArtifactKind

/-- A generated definition of a class. -/
structure Artifact where
  kind : ArtifactKind
  name : Text
  owner : Text
  definition : Code.Definition

namespace Artifact

def placement (artifact : Artifact) : Placement :=
  artifact.kind.placement

def code (artifact : Artifact) : Text :=
  artifact.definition.text

end Artifact

/-- The text behind the name of a generated class: the generic parameters as they are declared. -/
def RecordModel.headerParameters (model : RecordModel) : Text :=
  match model.genericStyle, model.genericBase with
  | .typeParameters, _ =>
    '[' :: Text.join [',', ' '] (model.genericParameters.map (·.declaration)) ++ [']']
  | .genericBase, some (first :: later) => '(' :: first :: later ++ [')']
  | _, _ => []

/-- The header of a generated class of a given name. -/
def RecordModel.classHeader (model : RecordModel) (name : Text) : Text :=
  "class " ++ name ++ model.headerParameters ++ ":"

/-- A name between two doubled grave accents, as documentation shows code. -/
def documented (name : Text) : Text :=
  "``" ++ name ++ "``"

end OpenRecord
