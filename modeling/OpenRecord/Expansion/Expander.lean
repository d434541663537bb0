import OpenRecord.Expansion.Walk

namespace OpenRecord

/-!
# Expansion of a file

Expanding a file puts the generated code of all its annotated classes into it, or, if any of them
is refused, changes nothing and reports every refusal.  Inspecting a file extracts the models of the
annotated classes without generating anything.
-/

open Source

/-- What a report says about a file that it could not get any further with. -/
inductive Report
  | unreadable
  | refused (diagnostic : Diagnostic)

def Report.text : Report → Text
  | .unreadable => "Parse Error: the text is not a module"
  | .refused diagnostic => diagnostic.format

/-- The result of expanding or inspecting a file. -/
structure Expansion where
  code : Text
  reports : List Report
  models : List RecordModel
  artifacts : List Artifact

namespace Expansion

def success (expansion : Expansion) : Bool :=
  expansion.reports.isEmpty

def errors (expansion : Expansion) : List Text :=
  expansion.reports.map (·.text)

def expandedTypes (expansion : Expansion) : List Text :=
  expansion.models.map (·.typeName)

/-- A file that was left as it is because of some reports. -/
def failed (code : Text) (reports : List Report) : Expansion :=
  ⟨code, reports, [], []⟩

end Expansion

/-- Why a file could not be expanded at all: emitted code that was accepted on its own could not be
read again at its new place. -/
inductive SpliceFault
  | unreadableArtifact
deriving DecidableEq

def refusals (outcomes : List Outcome) : List Diagnostic :=
  outcomes.filterMap fun outcome =>
    match outcome.result with
    | .error diagnostic => some diagnostic
    | .ok _ => none

def acceptedModels (outcomes : List Outcome) : List RecordModel :=
  outcomes.filterMap fun outcome =>
    match outcome.result with
    | .error _ => none
    | .ok _ => outcome.model

def acceptedArtifacts (outcomes : List Outcome) : List Artifact :=
  outcomes.flatMap fun outcome =>
    match outcome.result with
    | .error _ => []
    | .ok artifacts => artifacts

/-- The modules that the generated code of models refers to. -/
def requiredImports (models : List RecordModel) : List Text :=
  (if models.any (·.requests .destructure) then [("dataclasses" : Text)] else []) ++
    if models.any (·.requests .mutation) then [("typing" : Text), ("copy" : Text)] else []

def topOfFile (settings : Settings) (filename : Option Text) (file : SourceFile) : Surroundings :=
  { settings
    filename
    unit := file.defaultIndent
    fileNames := boundNames file.body
    scopes := []
    localNames := [] }

def Source.SourceFile.visit (file : SourceFile) (settings : Settings) (filename : Option Text) :
    Visit (List Statement) :=
  walkStatements (topOfFile settings filename file) file.body

/-- The expansion of a file that was walked over. -/
def finishExpansion (settings : Settings) (code : Text) (file : SourceFile)
    (visit : Visit (List Statement)) : Except SpliceFault Expansion :=
  match visit.result with
  | none => .error .unreadableArtifact
  | some body =>
    match refusals visit.outcomes with
    | first :: later => .ok (.failed code ((first :: later).map .refused))
    | [] =>
      let models := acceptedModels visit.outcomes
      let expanded := { file with body }
      let finished :=
        if models.isEmpty || !settings.injectImports then some (expanded, [])
        else addImports (requiredImports models) expanded
      match finished with
      | none => .error .unreadableArtifact
      | some (result, _) => .ok ⟨result.print, [], models, acceptedArtifacts visit.outcomes⟩

/-- Expand a source text, and tell the outcomes of its annotated definitions. -/
def expandWithOutcomes (settings : Settings) (code : Text) (filename : Option Text) :
    List Outcome × Except SpliceFault Expansion :=
  match SourceFile.parse? code with
  | none => ([], .ok (.failed code [.unreadable]))
  | some file =>
    let visit := file.visit settings filename
    (visit.outcomes, finishExpansion settings code file visit)

def expand (settings : Settings) (code : Text) (filename : Option Text) :
    Except SpliceFault Expansion :=
  (expandWithOutcomes settings code filename).2

/-! ## Inspection -/

mutual

/-- The annotated classes of a statement in the order in which they are entered. -/
def Source.Statement.annotatedClasses : Statement → List (Source.Definition × ClassHead × Suite)
  | .simple _ _ _ => []
  | .definition head body =>
    (match head.role with
      | .classDefinition shape => if head.annotated then [(head, shape, body)] else []
      | .functionDefinition _ => []) ++ body.annotatedClasses
  | .compound clauses => annotatedInClauses clauses

def Source.Suite.annotatedClasses : Suite → List (Source.Definition × ClassHead × Suite)
  | .inline _ _ => []
  | .block _ _ body _ => annotatedInStatements body
  | .cases _ _ clauses _ => annotatedInClauses clauses

def Source.Clause.annotatedClasses : Clause → List (Source.Definition × ClassHead × Suite)
  | .clause _ _ _ suite => suite.annotatedClasses

def annotatedInStatements : List Statement → List (Source.Definition × ClassHead × Suite)
  | [] => []
  | first :: later => first.annotatedClasses ++ annotatedInStatements later

def annotatedInClauses : List Clause → List (Source.Definition × ClassHead × Suite)
  | [] => []
  | first :: later => first.annotatedClasses ++ annotatedInClauses later

end

/-- The models of the annotated classes of a file, or the diagnostics of those that have none. -/
def inspectedClasses (filename : Option Text) (file : SourceFile) :
    List (Except Diagnostic RecordModel) :=
  (annotatedInStatements file.body).map fun (head, shape, body) =>
    extractClass head shape body
      (some ⟨filename, some head.position.line, some head.position.column⟩)

def inspect (code : Text) (filename : Option Text) : Expansion :=
  match SourceFile.parse? code with
  | none => .failed code [.unreadable]
  | some file =>
    let found := inspectedClasses filename file
    { code
      reports := found.filterMap fun extracted =>
        match extracted with
        | .error diagnostic => some (.refused diagnostic)
        | .ok _ => none
      models := found.filterMap fun extracted =>
        match extracted with
        | .error _ => none
        | .ok model => some model
      artifacts := [] }

end OpenRecord
