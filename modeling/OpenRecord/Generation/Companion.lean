import OpenRecord.Generation.Artifact
import OpenRecord.Record.GeneratedNames

namespace OpenRecord

/-!
# The companion type and its conversions

The companion of a record has the same fields with the same types in the same order, all of them
public.  A skipped field is carried as well, but it is no argument of the constructor.

`into_destruct` hands every field over to a new companion, skipped fields after it has been built.
`from_destruct` allocates a record without running its initialiser and writes the fields past any
guard of the class.
-/

open Code

def RecordModel.companion (model : RecordModel) (settings : Settings) : CompanionModel :=
  { name := companionName model.typeName settings
    recordName := model.typeName
    genericParameters := model.genericParameters
    fields := model.fields.map fun field => { field with visibility := .isPublic } }

/-- The class that defines the companion of a record. -/
def companionArtifact (model : RecordModel) (settings : Settings) : Artifact :=
  let companion := model.companion settings
  { kind := .companionType
    name := companion.name
    owner := model.typeName
    definition := .type
      { derived := true
        name := companion.name
        parameters := model.headerParameters
        documentation :=
          "Fully exposed fields of " ++ documented model.typeName ++ ".\n\n" ++
            ("Produced by " ++ documented (model.typeName ++ ".into_destruct()") ++
              "; turn it back with " ++ documented (model.typeName ++ ".from_destruct()") ++ ".")
        members := companion.fields.map fun field =>
          .field field.name field.declaredType field.skip } }

/-! ## Conversions -/

def localAttribute (value field : Text) : Term :=
  .attribute (.name value) field

/-- A write past the guards of a class. -/
def rawWrite (instanceName field source : Text) : Command :=
  .evaluate <| .call (localAttribute "object" "__setattr__")
    [.name instanceName, .string field, localAttribute source field]

def intoBody (companion : CompanionModel) : List Command :=
  let moves := (companion.fields.filter (!·.skip)).map fun field =>
    (field.name, localAttribute "self" field.name)
  let built : Term := .construct (.name companion.name) moves
  match companion.fields.filter (·.skip) with
  | [] => [.return built]
  | hidden =>
    .assign (.name "destruct") built ::
      hidden.map (fun field =>
        .assign (localAttribute "destruct" field.name) (localAttribute "self" field.name)) ++
      [.return (.name "destruct")]

/-- The method that turns a record into its companion. -/
def intoArtifact (model : RecordModel) (companion : CompanionModel) : Artifact :=
  { kind := .conversion
    name := "into_destruct"
    owner := model.typeName
    definition := .method
      { role := .plain
        name := "into_destruct"
        parameters := [⟨"self", none⟩]
        result := quote (model.applyGenerics companion.name)
        documentation := some <|
          "Moves every field into a fully exposed " ++ documented companion.name ++ ".\n\n" ++
            ("Field values are handed over by reference, not copied." : Text)
        body := intoBody companion } }

def fromArtifact (model : RecordModel) (companion : CompanionModel) : Artifact :=
  { kind := .restore
    name := "from_destruct"
    owner := model.typeName
    definition := .method
      { role := .ofClass
        name := "from_destruct"
        parameters :=
          [⟨"cls", none⟩, ⟨"destruct", some (quote (model.applyGenerics companion.name))⟩]
        result := quote (model.applyGenerics model.typeName)
        documentation := some <|
          "Rebuilds a " ++ documented model.typeName ++
            " from its companion without calling " ++ documented "__init__" ++ "."
        body :=
          .assign (.name "instance") (.call (localAttribute "object" "__new__") [.name "cls"]) ::
            companion.fields.map (fun field => rawWrite "instance" field.name "destruct") ++
            [.return (.name "instance")] } }

def conversionArtifacts (model : RecordModel) (companion : CompanionModel) : List Artifact :=
  [intoArtifact model companion, fromArtifact model companion]

end OpenRecord
