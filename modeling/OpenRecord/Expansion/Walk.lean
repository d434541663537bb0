import OpenRecord.Expansion.Splice

namespace OpenRecord

/-!
# The walk over a file

Every definition that requests a capability has an *outcome*, which is settled when the walk leaves
the definition; those inside it come first.  The walk returns the outcomes in this order together
with the statements that result.  It breaks off only if the text of an accepted artifact cannot be
read at its new place.
-/

open Source

/-- What came of a definition that requests a capability: its model, if one could be extracted, and
its artifacts or the reason why there are none. -/
structure Outcome where
  model : Option RecordModel
  result : Except Diagnostic (List Artifact)

/-- The kinds of definitions that a statement can stand in. -/
inductive Scope
  | classScope
  | functionScope
deriving DecidableEq

/-- What the walk knows about the place it is at: the settings and the file, the definitions around
the place from the innermost one, and the names bound in the innermost function up to the place. -/
structure Surroundings where
  settings : Settings
  filename : Option Text
  unit : Text
  fileNames : List Text
  scopes : List Scope
  localNames : List Text

namespace Surroundings

/-- The place inside a function with given parameters. -/
def enterFunction (around : Surroundings) (parameters : List Text) : Surroundings :=
  { around with scopes := .functionScope :: around.scopes, localNames := parameters }

/-- The place inside a class. -/
def enterClass (around : Surroundings) : Surroundings :=
  { around with scopes := .classScope :: around.scopes }

/-- The place inside an indented block. -/
def enterBlock (around : Surroundings) (body : List Statement) : Surroundings :=
  { around with localNames := around.localNames ++ boundNames body }

/-- The place inside a definition. -/
def enter (around : Surroundings) : Role → Surroundings
  | .classDefinition _ => around.enterClass
  | .functionDefinition function => around.enterFunction function.parameters

def locate (around : Surroundings) (position : Position) : Location :=
  ⟨around.filename, some position.line, some position.column⟩

/-- The names that a generated type must not take: those of the file at its top level, and inside a
function those bound in the function. -/
def scopeNames (around : Surroundings) : List Text :=
  match around.scopes with
  | [] => around.fileNames
  | _ => around.localNames

end Surroundings

def classOutcome (around : Surroundings) (head : Source.Definition) (shape : ClassHead)
    (body : Suite) : Outcome :=
  let location := around.locate head.position
  let attach : Except Diagnostic (List Artifact) → Except Diagnostic (List Artifact)
    | .error diagnostic => .error (diagnostic.located (some location))
    | .ok artifacts => .ok artifacts
  match extractClass head shape body (some location) with
  | .error diagnostic => ⟨none, attach (.error diagnostic)⟩
  | .ok model =>
    if around.scopes.head? = some .classScope then
      ⟨some model, attach (.error ⟨.nestedInClass, some model.typeName, none⟩)⟩
    else ⟨some model, attach (generate model around.settings (some around.scopeNames))⟩

/-- The outcome of an annotated function, which is always refused. -/
def functionOutcome (around : Surroundings) (head : Source.Definition) (function : FunctionHead) :
    Outcome :=
  ⟨none, .error ⟨.functionDecorated, some function.name, some (around.locate head.position)⟩⟩

/-- Outcomes in the order in which they were settled, and what the walk results in, unless it broke
off. -/
structure Visit (α : Type) where
  outcomes : List Outcome
  result : Option α

/-- One visit after another; after a break the second one does not take place. -/
def Visit.andThen {α β γ : Type} (join : α → β → γ) (first : Visit α) (second : Visit β) :
    Visit γ :=
  match first.result with
  | none => ⟨first.outcomes, none⟩
  | some left => ⟨first.outcomes ++ second.outcomes, second.result.map (join left)⟩

def Visit.map {α β : Type} (change : α → β) (visit : Visit α) : Visit β :=
  ⟨visit.outcomes, visit.result.map change⟩

/-- Leave a definition whose body has been walked over. -/
def leaveDefinition (around : Surroundings) (head : Source.Definition) (written : Suite)
    (visit : Visit Suite) : Visit (List Statement) :=
  match visit.result with
  | none => ⟨visit.outcomes, none⟩
  | some body =>
    if !head.annotated then ⟨visit.outcomes, some [.definition head body]⟩
    else
      match head.role with
      | .functionDefinition function =>
        ⟨visit.outcomes ++ [functionOutcome around head function],
          some [.definition head body]⟩
      | .classDefinition shape =>
        let outcome := classOutcome around head shape written
        match outcome.result with
        | .error _ => ⟨visit.outcomes ++ [outcome], some [.definition head body]⟩
        | .ok artifacts =>
          let site : Site :=
            ⟨around.unit, List.replicate head.position.column ' ',
              if around.scopes = [] then 2 else 1⟩
          ⟨visit.outcomes ++ [outcome], spliceClass site head body artifacts⟩

mutual

/-- Walk over a statement, which may become several. -/
def Source.Statement.walk (around : Surroundings) : Statement → Visit (List Statement)
  | .simple above items ending => ⟨[], some [.simple above items ending]⟩
  | .definition head body => leaveDefinition around head body (body.walk (around.enter head.role))
  | .compound clauses => (walkClauses around clauses).map fun clauses => [.compound clauses]

/-- Walk over what stands behind a colon. -/
def Source.Suite.walk (around : Surroundings) : Suite → Visit Suite
  | .inline items ending => ⟨[], some (.inline items ending)⟩
  | .block opening indent body foot =>
    (walkStatements (around.enterBlock body) body).map fun body => .block opening indent body foot
  | .cases opening indent clauses foot =>
    (walkClauses around clauses).map fun clauses => .cases opening indent clauses foot

def Source.Clause.walk (around : Surroundings) : Clause → Visit Clause
  | .clause kind above tokens suite =>
    (suite.walk around).map fun suite => .clause kind above tokens suite

def walkStatements (around : Surroundings) : List Statement → Visit (List Statement)
  | [] => ⟨[], some []⟩
  | first :: later => (first.walk around).andThen (· ++ ·) (walkStatements around later)

def walkClauses (around : Surroundings) : List Clause → Visit (List Clause)
  | [] => ⟨[], some []⟩
  | first :: later => (first.walk around).andThen (· :: ·) (walkClauses around later)

end

end OpenRecord
