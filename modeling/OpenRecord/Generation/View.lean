import OpenRecord.Generation.Companion

namespace OpenRecord

/-!
# Views

A view holds one record and has a property for each exposed field.  A writable view is emptied when
the operation that made it ends; from then on each of its properties refuses to work.
-/

open Code

/-- The viewed record, inside a view. -/
def viewed : Term :=
  localAttribute "self" viewTarget

/-- The refusal of an emptied view. -/
def expired (name scope : Text) : Command :=
  .whenAbsent viewed
    [.raise (.call (.name "ReferenceError") [.string (name ++ " used outside of " ++ scope)])]

/-- The property that reads a field. -/
def viewGetter (name scope : Text) (writable : Bool) (field : Field) : Method :=
  { role := .getter
    name := field.name
    parameters := [⟨"self", none⟩]
    result := quote field.declaredType
    documentation := none
    body :=
      (if writable then [expired name scope] else []) ++
        [.return (.attribute viewed field.name)] }

/-- The property that writes a field past the guards of its class. -/
def viewSetter (name scope : Text) (field : Field) : Method :=
  { role := .setter
    name := field.name
    parameters := [⟨"self", none⟩, ⟨"value", some (quote field.declaredType)⟩]
    result := "None"
    documentation := none
    body :=
      [expired name scope,
        .evaluate <| .call (localAttribute "object" "__setattr__")
          [viewed, .string field.name, .name "value"]] }

/-- The class of a view. `scope` is the operation that the view belongs to. -/
def viewClass (model : RecordModel) (name : Text) (writable : Bool) (scope : Text) : ClassCode :=
  { derived := false
    name
    parameters := model.headerParameters
    documentation :=
      if writable then
        "Writable view over the fields of " ++ documented model.typeName ++
          ". Valid only inside " ++ documented scope ++ "."
      else
        "Read-only view over the fields of " ++ documented model.typeName ++
          ", returned by " ++ documented scope ++ "."
    members :=
      .slots [viewTarget] ::
      .method
        { role := .plain
          name := "__init__"
          parameters :=
            [⟨"self", none⟩, ⟨"target", some (quote (model.applyGenerics model.typeName))⟩]
          result := "None"
          documentation := none
          body := [.assign viewed (.name "target")] } ::
      model.exposedFields.flatMap fun field =>
        .method (viewGetter name scope writable field) ::
          (if writable then [.method (viewSetter name scope field)] else []) }

/-! ## Operations with a view -/

def mutationViewArtifact (model : RecordModel) (settings : Settings) : Artifact :=
  let name := mutationViewName model.typeName settings
  { kind := .mutationView
    name
    owner := model.typeName
    definition := .type (viewClass model name true (model.typeName ++ ".substitute()")) }

def referenceViewArtifact (model : RecordModel) (settings : Settings) : Artifact :=
  let name := referenceViewName model.typeName settings
  { kind := .referenceView
    name
    owner := model.typeName
    definition := .type (viewClass model name false (model.typeName ++ ".as_destruct()")) }

def asArtifact (model : RecordModel) (settings : Settings) : Artifact :=
  let name := referenceViewName model.typeName settings
  { kind := .asDestruct
    name := "as_destruct"
    owner := model.typeName
    definition := .method
      { role := .plain
        name := "as_destruct"
        parameters := [⟨"self", none⟩]
        result := quote (model.applyGenerics name)
        documentation := some <|
          "Returns a read-only " ++ documented name ++ " over the fields of " ++
            documented "self" ++ "."
        body := [.return (.call (.name name) [.name "self"])] } }

/-- The read-only view and the method that returns it. -/
def referenceArtifacts (model : RecordModel) (settings : Settings) : List Artifact :=
  [referenceViewArtifact model settings, asArtifact model settings]

end OpenRecord
