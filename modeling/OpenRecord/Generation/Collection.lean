import OpenRecord.Generation.Editing
import OpenRecord.Source.Tree

namespace OpenRecord

/-!
# All artifacts of a model

The artifacts of a model are generated in a fixed order, capability by capability.  Before that the
model must request the companion if it requests mutation, and its names must be free of clashes;
after it every artifact must be one statement.
-/

def capabilityArtifacts (model : RecordModel) (settings : Settings) : Capability → List Artifact
  | .destructure =>
    companionArtifact model settings :: conversionArtifacts model (model.companion settings)
  | .mutation =>
    [mutationViewArtifact model settings,
      reconstructArtifact model (model.companion settings),
      substituteArtifact model settings]
  | .destructureRef => referenceArtifacts model settings

/-- The artifacts of all requested capabilities, in the order of emission. -/
def synthesize (model : RecordModel) (settings : Settings) : List Artifact :=
  model.requested.flatMap (capabilityArtifacts model settings)

def Artifact.wellFormed (artifact : Artifact) : Bool :=
  (Source.Statement.parse? artifact.code).isSome

/-- Generate the artifacts of a model.  The scope holds the names bound beside the class, if they
are known. -/
def generate (model : RecordModel) (settings : Settings) (scope : Option (List Text)) :
    Except Diagnostic (List Artifact) :=
  if model.requests .mutation && !model.requests .destructure then
    .error ⟨.mutationAlone, some model.typeName, model.location⟩
  else
    match model.checkNames settings scope with
    | .error diagnostic => .error diagnostic
    | .ok () =>
      let artifacts := synthesize model settings
      match artifacts.find? (!·.wellFormed) with
      | some artifact =>
        .error ⟨.malformedArtifact artifact.kind.label artifact.name, some model.typeName,
          model.location⟩
      | none => .ok artifacts

end OpenRecord
