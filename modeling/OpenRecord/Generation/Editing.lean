import OpenRecord.Generation.View

namespace OpenRecord

/-!
# Changing a record through its companion

`reconstruct` lets a callback edit a companion and writes the result into a shallow copy of the
record, so that attributes the companion does not carry are kept.  `substitute` lets a callback
edit the record itself through a writable view.  Both are defined in terms of the companion, so
that they need the capability that generates it.
-/

open Code

/-- The type of a callback that takes a value of a given type. -/
def callbackType (argument : Text) : Text :=
  quote ("typing.Callable[[" ++ argument ++ "], object]")

/-- The method that builds a changed record. -/
def reconstructArtifact (model : RecordModel) (companion : CompanionModel) : Artifact :=
  { kind := .reconstruct
    name := "reconstruct"
    owner := model.typeName
    definition := .method
      { role := .plain
        name := "reconstruct"
        parameters :=
          [⟨"self", none⟩, ⟨"f", some (callbackType (model.applyGenerics companion.name))⟩]
        result := quote (model.applyGenerics model.typeName)
        documentation := some <|
          "Edits the fields through a " ++ documented companion.name ++ " and returns a new " ++
            documented model.typeName ++ ".\n\n" ++
            (documented "f" ++
              " is called exactly once; fields it leaves alone carry over unchanged.\n" ++
              ("If " ++ documented "f" ++ " raises, the exception propagates and " ++
                documented "self" ++ " is not modified."))
        body :=
          [.assign (.name "destruct") (.call (localAttribute "self" "into_destruct") []),
            .evaluate (.call (.name "f") [.name "destruct"]),
            .assign (.name "instance") (.call (localAttribute "copy" "copy") [.name "self"])] ++
            companion.fields.map (fun field => rawWrite "instance" field.name "destruct") ++
            [.return (.name "instance")] } }

def substituteArtifact (model : RecordModel) (settings : Settings) : Artifact :=
  let view := mutationViewName model.typeName settings
  { kind := .substitute
    name := "substitute"
    owner := model.typeName
    definition := .method
      { role := .plain
        name := "substitute"
        parameters := [⟨"self", none⟩, ⟨"f", some (callbackType (model.applyGenerics view))⟩]
        result := "None"
        documentation := some <|
          "Edits the fields of " ++ documented "self" ++ " in place through a " ++
            documented view ++ ".\n\n" ++
            (documented "f" ++ " is called exactly once. The view writes straight into " ++
              documented "self" ++ " and\nstops working once " ++ documented "f" ++ " returns.")
        body :=
          [.assign (.name "view") (.call (.name view) [.name "self"]),
            .finally [.evaluate (.call (.name "f") [.name "view"])]
              [.assign (localAttribute "view" viewTarget) .absent]] } }

/-- The writable view and the two methods; they need a companion and the capability of one. -/
def mutationArtifacts (model : RecordModel) (settings : Settings)
    (companion : Option CompanionModel) : Except Diagnostic (List Artifact) :=
  match companion, model.requests .destructure with
  | some companion, true =>
    .ok [mutationViewArtifact model settings, reconstructArtifact model companion,
      substituteArtifact model settings]
  | _, _ => .error ⟨.mutationAlone, some model.typeName, model.location⟩

end OpenRecord
