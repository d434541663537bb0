import OpenRecord.Expansion.Expander

namespace OpenRecord

/-!
# The requests of a file

A *request* is a definition that asks for a capability, seen from its surroundings.  The requests
of a file are read off its tree alone, in the order in which their definitions end, so that those
inside a definition come before it.  Nothing that happens to one request is visible here to
another.

The *verdict* on a request is what expansion has to say about it: the model and the artifacts of a
class, or the diagnostic that refuses the definition.  The walk computes the same thing as an
outcome, piece by piece; `outcome_result` and `outcome_model` say that the two agree.
-/

open Source

/-- A definition that asks for a capability, and what is known about its place. -/
structure Request where
  around : Surroundings
  head : Source.Definition
  body : Suite

mutual

def Source.Statement.requests (around : Surroundings) : Statement → List Request
  | .simple _ _ _ => []
  | .definition head body =>
    body.requests (around.enter head.role) ++ if head.annotated then [⟨around, head, body⟩] else []
  | .compound clauses => requestsInClauses around clauses

def Source.Suite.requests (around : Surroundings) : Suite → List Request
  | .inline _ _ => []
  | .block _ _ body _ => requestsInStatements (around.enterBlock body) body
  | .cases _ _ clauses _ => requestsInClauses around clauses

def Source.Clause.requests (around : Surroundings) : Clause → List Request
  | .clause _ _ _ suite => suite.requests around

def requestsInStatements (around : Surroundings) : List Statement → List Request
  | [] => []
  | first :: later => first.requests around ++ requestsInStatements around later

def requestsInClauses (around : Surroundings) : List Clause → List Request
  | [] => []
  | first :: later => first.requests around ++ requestsInClauses around later

end

def Source.SourceFile.requests (file : SourceFile) (settings : Settings)
    (filename : Option Text) : List Request :=
  requestsInStatements (topOfFile settings filename file) file.body

namespace Request

def location (request : Request) : Location :=
  request.around.locate request.head.position

/-- The model and the artifacts of a class, or the diagnostic of the first stage that refuses the
definition.  Functions are refused as such, and classes by extraction, for standing directly in a
class, or by generation. -/
def verdict (request : Request) : Except Diagnostic (RecordModel × List Artifact) :=
  match request.head.role with
  | .functionDefinition function =>
    .error ⟨.functionDecorated, some function.name, some request.location⟩
  | .classDefinition shape =>
    match extractClass request.head shape request.body (some request.location) with
    | .error diagnostic => .error diagnostic
    | .ok model =>
      if request.around.scopes.head? = some .classScope then
        .error ⟨.nestedInClass, some model.typeName, some request.location⟩
      else
        (generate model request.around.settings (some request.around.scopeNames)).map
          fun artifacts => (model, artifacts)

/-- The diagnostic that refuses the definition, if one does. -/
def refusal (request : Request) : Option Diagnostic :=
  match request.verdict with
  | .error diagnostic => some diagnostic
  | .ok _ => none

/-- The outcome that the walk settles when it leaves the definition. -/
def outcome (request : Request) : Outcome :=
  match request.head.role with
  | .functionDefinition function => functionOutcome request.around request.head function
  | .classDefinition shape => classOutcome request.around request.head shape request.body

end Request

/-! ## Requests of one file -/

structure Surroundings.SameFile (place other : Surroundings) : Prop where
  settings : place.settings = other.settings
  filename : place.filename = other.filename
  unit : place.unit = other.unit
  fileNames : place.fileNames = other.fileNames

/-- Entering a definition does not leave the file. -/
theorem Surroundings.sameFile_enter (around : Surroundings) (role : Role) :
    (around.enter role).SameFile around := by
  cases role <;> exact ⟨rfl, rfl, rfl, rfl⟩

theorem Surroundings.sameFile_enterBlock (around : Surroundings) (body : List Statement) :
    (around.enterBlock body).SameFile around :=
  ⟨rfl, rfl, rfl, rfl⟩

theorem Surroundings.SameFile.trans {first second third : Surroundings}
    (former : first.SameFile second) (latter : second.SameFile third) : first.SameFile third :=
  ⟨former.settings.trans latter.settings, former.filename.trans latter.filename,
    former.unit.trans latter.unit, former.fileNames.trans latter.fileNames⟩

mutual

theorem Source.Statement.sameFile_of_mem {request : Request} (around : Surroundings) :
    ∀ statement : Statement, request ∈ statement.requests around → request.around.SameFile around
  | .simple _ _ _, member => by simp [Statement.requests] at member
  | .definition head body, member => by
    rcases List.mem_append.1 member with inner | own
    · exact (body.sameFile_of_mem _ inner).trans (around.sameFile_enter head.role)
    · split at own
      · rw [List.mem_singleton.1 own]
        exact ⟨rfl, rfl, rfl, rfl⟩
      · simp at own
  | .compound clauses, member => sameFile_of_mem_clauses around clauses member

/-- A request behind a colon is made in the file of the colon. -/
theorem Source.Suite.sameFile_of_mem {request : Request} (around : Surroundings) :
    ∀ suite : Suite, request ∈ suite.requests around → request.around.SameFile around
  | .inline _ _, member => by simp [Suite.requests] at member
  | .block _ _ body _, member =>
    (sameFile_of_mem_statements _ body member).trans (around.sameFile_enterBlock body)
  | .cases _ _ clauses _, member => sameFile_of_mem_clauses around clauses member

theorem Source.Clause.sameFile_of_mem {request : Request} (around : Surroundings) :
    ∀ clause : Clause, request ∈ clause.requests around → request.around.SameFile around
  | .clause _ _ _ suite, member => suite.sameFile_of_mem around member

theorem sameFile_of_mem_statements {request : Request} (around : Surroundings) :
    ∀ statements : List Statement, request ∈ requestsInStatements around statements →
      request.around.SameFile around
  | [], member => by simp [requestsInStatements] at member
  | first :: later, member =>
    (List.mem_append.1 member).elim (first.sameFile_of_mem around)
      (sameFile_of_mem_statements around later)

theorem sameFile_of_mem_clauses {request : Request} (around : Surroundings) :
    ∀ clauses : List Clause, request ∈ requestsInClauses around clauses →
      request.around.SameFile around
  | [], member => by simp [requestsInClauses] at member
  | first :: later, member =>
    (List.mem_append.1 member).elim (first.sameFile_of_mem around)
      (sameFile_of_mem_clauses around later)

end

theorem Source.SourceFile.sameFile_of_mem {request : Request} {file : SourceFile}
    {settings : Settings} {filename : Option Text}
    (member : request ∈ file.requests settings filename) :
    request.around.SameFile (topOfFile settings filename file) :=
  sameFile_of_mem_statements _ _ member

/-! ## Where diagnostics come from -/

/-- The two ways in which extraction ends: a base class or a lack of fields refuses the class, or
its fields make the model. -/
theorem extractClass_cases (head : Source.Definition) (shape : ClassHead) (body : Suite)
    (location : Option Location) :
    (∃ cause, extractClass head shape body location = .error ⟨cause, some shape.name, location⟩) ∨
      ∃ model, extractClass head shape body location = .ok model ∧ model.typeName = shape.name ∧
        model.location = location ∧ model.capabilities = .ofList head.capabilities ∧
        model.fields = fieldsFrom 0 body.entries ∧ model.fields ≠ [] := by
  unfold extractClass
  cases shape.bases.findSome? baseProblem with
  | some cause => exact Or.inl ⟨cause, rfl⟩
  | none =>
    dsimp only
    cases fields : fieldsFrom 0 body.entries with
    | nil => exact Or.inl ⟨.noFields, rfl⟩
    | cons first later =>
      exact Or.inr ⟨_, rfl, rfl, rfl, rfl, rfl, List.cons_ne_nil first later⟩

theorem extractClass_eq_ok {head : Source.Definition} {shape : ClassHead} {body : Suite}
    {location : Option Location} {model : RecordModel}
    (extracted : extractClass head shape body location = .ok model) :
    model.typeName = shape.name ∧ model.location = location ∧
      model.capabilities = .ofList head.capabilities ∧
      model.fields = fieldsFrom 0 body.entries ∧ model.fields ≠ [] := by
  rcases extractClass_cases head shape body location with ⟨cause, refused⟩ | ⟨found, same, facts⟩
  · rw [refused] at extracted
    cases extracted
  · rw [same] at extracted
    cases extracted
    exact facts

theorem extractClass_location {head : Source.Definition} {shape : ClassHead} {body : Suite}
    {location : Option Location} {model : RecordModel}
    (extracted : extractClass head shape body location = .ok model) :
    model.location = location :=
  (extractClass_eq_ok extracted).2.1

theorem extractClass_error_location {head : Source.Definition} {shape : ClassHead} {body : Suite}
    {location : Option Location} {diagnostic : Diagnostic}
    (refused : extractClass head shape body location = .error diagnostic) :
    diagnostic.location = location := by
  rcases extractClass_cases head shape body location with ⟨cause, same⟩ | ⟨found, same, facts⟩
  · rw [same] at refused
    cases refused
    rfl
  · rw [same] at refused
    cases refused

/-- The two ways in which generation ends: a diagnostic at the location of the model, or all the
artifacts that the model asks for, each of them one statement. -/
theorem generate_cases (model : RecordModel) (settings : Settings) (scope : Option (List Text)) :
    (∃ cause, generate model settings scope =
      .error ⟨cause, some model.typeName, model.location⟩) ∨
      generate model settings scope = .ok (synthesize model settings) ∧
        model.firstClash settings scope = none ∧
        ∀ artifact ∈ synthesize model settings, artifact.wellFormed = true := by
  unfold generate RecordModel.checkNames
  by_cases alone : (model.requests .mutation && !model.requests .destructure) = true
  · exact Or.inl ⟨.mutationAlone, by rw [if_pos alone]⟩
  · rw [if_neg alone]
    cases clash : model.firstClash settings scope with
    | some cause => exact Or.inl ⟨cause, rfl⟩
    | none =>
      cases malformed : (synthesize model settings).find? (!·.wellFormed) with
      | some artifact =>
        refine Or.inl ⟨.malformedArtifact artifact.kind.label artifact.name, ?_⟩
        simp only [malformed]
      | none =>
        refine Or.inr ⟨?_, rfl, ?_⟩
        · simp only [malformed]
        · simpa using List.find?_eq_none.1 malformed

/-- What generation returns is all that the model asks for. -/
theorem generate_eq_ok {model : RecordModel} {settings : Settings} {scope : Option (List Text)}
    {artifacts : List Artifact} (generated : generate model settings scope = .ok artifacts) :
    artifacts = synthesize model settings ∧ model.firstClash settings scope = none ∧
      ∀ artifact ∈ artifacts, artifact.wellFormed = true := by
  rcases generate_cases model settings scope with ⟨cause, refused⟩ | ⟨same, free, formed⟩
  · rw [refused] at generated
    cases generated
  · rw [same] at generated
    cases generated
    exact ⟨rfl, free, formed⟩

/-- Generation refuses a model at its location, at whichever stage. -/
theorem generate_error_location {model : RecordModel} {settings : Settings}
    {scope : Option (List Text)} {diagnostic : Diagnostic}
    (refused : generate model settings scope = .error diagnostic) :
    diagnostic.location = model.location := by
  rcases generate_cases model settings scope with ⟨cause, same⟩ | ⟨same, _⟩
  · rw [same] at refused
    cases refused
    rfl
  · rw [same] at refused
    cases refused

/-- Attaching a place to a diagnostic that has it already changes nothing. -/
theorem located_of_location {diagnostic : Diagnostic} {location : Location}
    (known : diagnostic.location = some location) :
    diagnostic.located (some location) = diagnostic := by
  unfold Diagnostic.located
  rw [known]

namespace Request

/-! The verdict and the outcome of a class, stage by stage. -/

theorem verdict_of_class {request : Request} {shape : ClassHead}
    (role : request.head.role = .classDefinition shape) :
    request.verdict =
      match extractClass request.head shape request.body (some request.location) with
      | .error diagnostic => .error diagnostic
      | .ok model =>
        if request.around.scopes.head? = some .classScope then
          .error ⟨.nestedInClass, some model.typeName, some request.location⟩
        else
          (generate model request.around.settings (some request.around.scopeNames)).map
            fun artifacts => (model, artifacts) := by
  simp only [verdict, role]

/-- An accepted request is that of a class which was extracted, stands in no class directly, and
was generated from. -/
theorem verdict_eq_ok_iff {request : Request} {model : RecordModel} {artifacts : List Artifact} :
    request.verdict = .ok (model, artifacts) ↔
      ∃ shape, request.head.role = .classDefinition shape ∧
        extractClass request.head shape request.body (some request.location) = .ok model ∧
        request.around.scopes.head? ≠ some .classScope ∧
        generate model request.around.settings (some request.around.scopeNames) =
          .ok artifacts := by
  cases role : request.head.role with
  | functionDefinition function => simp [verdict, role]
  | classDefinition shape =>
    rw [verdict_of_class role]
    cases extracted : extractClass request.head shape request.body (some request.location) with
    | error diagnostic => simp [extracted]
    | ok found =>
      by_cases nested : request.around.scopes.head? = some .classScope
      · simp [nested]
      · cases generated : generate found request.around.settings
            (some request.around.scopeNames) with
        | error diagnostic =>
          simp only [nested, if_false, generated, Except.map, reduceCtorEq, false_iff]
          rintro ⟨_, same, extracted', -, generated'⟩
          cases same
          rw [extracted] at extracted'
          cases extracted'
          rw [generated] at generated'
          cases generated'
        | ok emitted =>
          simp only [nested, if_false, generated, Except.map, Except.ok.injEq, Prod.mk.injEq]
          constructor
          · rintro ⟨rfl, rfl⟩
            exact ⟨shape, rfl, extracted, nested, generated⟩
          · rintro ⟨_, same, extracted', -, generated'⟩
            cases same
            rw [extracted] at extracted'
            cases extracted'
            rw [generated] at generated'
            cases generated'
            exact ⟨rfl, rfl⟩

/-- Every refusal carries the location of the definition that it refuses. -/
theorem verdict_error_location {request : Request} {diagnostic : Diagnostic}
    (refused : request.verdict = .error diagnostic) :
    diagnostic.location = some request.location := by
  cases role : request.head.role with
  | functionDefinition function =>
    simp only [verdict, role] at refused
    cases refused
    rfl
  | classDefinition shape =>
    rw [verdict_of_class role] at refused
    cases extracted : extractClass request.head shape request.body (some request.location) with
    | error found =>
      rw [extracted] at refused
      cases refused
      exact extractClass_error_location extracted
    | ok model =>
      rw [extracted] at refused
      dsimp only at refused
      split at refused
      · cases refused
        rfl
      · cases generated : generate model request.around.settings
            (some request.around.scopeNames) with
        | ok artifacts =>
          rw [generated] at refused
          cases refused
        | error found =>
          rw [generated] at refused
          cases refused
          rw [generate_error_location generated]
          exact extractClass_location extracted

/-- The outcome of a request has the artifacts or the diagnostic of its verdict.  A diagnostic that
arises without a place is given the one of its definition, and all others have it already. -/
theorem outcome_result (request : Request) :
    request.outcome.result = request.verdict.map (·.2) := by
  cases role : request.head.role with
  | functionDefinition function =>
    simp only [outcome, verdict, role, functionOutcome]
    rfl
  | classDefinition shape =>
    rw [verdict_of_class role]
    simp only [outcome, role, classOutcome]
    rw [show request.around.locate request.head.position = request.location from rfl]
    cases extracted : extractClass request.head shape request.body (some request.location) with
    | error diagnostic =>
      simp only [Except.map]
      rw [located_of_location (extractClass_error_location extracted)]
    | ok model =>
      by_cases nested : request.around.scopes.head? = some .classScope
      · simp only [nested, if_true, Except.map]
        rfl
      · simp only [nested, if_false]
        cases generated : generate model request.around.settings
            (some request.around.scopeNames) with
        | ok artifacts => rfl
        | error diagnostic =>
          have place : diagnostic.location = some request.location :=
            (generate_error_location generated).trans (extractClass_location extracted)
          simp only [Except.map]
          rw [located_of_location place]

theorem outcome_model {request : Request} {model : RecordModel} {artifacts : List Artifact}
    (accepted : request.verdict = .ok (model, artifacts)) :
    request.outcome.model = some model := by
  rcases verdict_eq_ok_iff.1 accepted with ⟨shape, role, extracted, outside, -⟩
  simp only [outcome, role, classOutcome]
  rw [show request.around.locate request.head.position = request.location from rfl]
  simp only [extracted, outside, if_false]

end Request
end OpenRecord
