import OpenRecord.Diagnostic
import OpenRecord.Record.Basic
import OpenRecord.Source.Tree
import OpenRecord.Text.Quoted

namespace OpenRecord

/-!
# Extraction

A record model is read off the definition of a class.  Fields are the declarations with a type that
stand directly in its body and have a simple name as target; a declaration whose type says that the
value belongs to the class or to the initialiser is another member.  Nothing is evaluated: base
classes, types and markers are recognised by the last part of their names.
-/

open Source

/-! ## Statements and decorators -/

def Source.Statement.kindName : Statement → Text
  | .simple _ _ _ => "SimpleStatementLine"
  | .definition ⟨_, _, _, _, .classDefinition _, _⟩ _ => "ClassDef"
  | .definition ⟨_, _, _, _, .functionDefinition _, _⟩ _ => "FunctionDef"
  | .compound clauses =>
    match clauses with
    | .clause .ifClause _ _ _ :: _ => "If"
    | .clause .forClause _ _ _ :: _ => "For"
    | .clause .whileClause _ _ _ :: _ => "While"
    | .clause .tryClause _ _ _ :: .clause .exceptGroupClause _ _ _ :: _ => "TryStar"
    | .clause .tryClause _ _ _ :: _ => "Try"
    | .clause .withClause _ _ _ :: _ => "With"
    | .clause .matchClause _ _ _ :: _ => "Match"
    | _ => []

/-- The capability that a decorator requests; calling it or subscripting it makes no difference. -/
def Source.Decorator.capability (decorator : Decorator) : Option Capability :=
  let function :=
    match decorator.expression with
    | .call function => function
    | value => value
  Capability.ofLabel? function.lastSegment

/-- The capabilities that the decorators of a definition request. -/
def Source.Definition.capabilities (head : Source.Definition) : List Capability :=
  head.decorators.filterMap (·.capability)

def Source.Definition.annotated (head : Source.Definition) : Bool :=
  !head.capabilities.isEmpty

/-! ## Types -/

/-- The names of types that make a declaration something else than a field. -/
def nonFieldWrappers : List Text :=
  ["ClassVar", "InitVar", "KW_ONLY"]

/-- The name that a type expression starts with: without the marks of a literal around it, up to the
first bracket, and of that the part behind the last dot. -/
def typeHead (rendered : Text) : Text :=
  let bare := rendered.strip fun c => c == Text.singleMark || c == Text.doubleMark
  Text.afterLast '.' (Text.trim (Text.before '[' bare))

def isNonFieldType (rendered : Text) : Bool :=
  nonFieldWrappers.contains (typeHead rendered)

/-- Whether an element of a subscript is the marker of a skipped field, called or not. -/
def isSkipMarker : Option Expression × List Token → Bool
  | (none, _) => false
  | (some (.call function), _) => function.lastSegment == "Skip"
  | (some value, _) => value.lastSegment == "Skip"

/-- Whether the type of a field carries the marker of a skipped field. -/
def isSkipped : Expression → Bool
  | .subscript value (_ :: markers) =>
    value.lastSegment == "Annotated" && markers.any isSkipMarker
  | _ => false

/-! ## Bases -/

/-- The base classes of a header: the arguments before the first one with a keyword. -/
def Source.ClassHead.bases (head : ClassHead) : List Argument :=
  head.arguments.takeWhile fun argument => argument.keyword.isNone && argument.stars < 2

def enumerationBases : List Text :=
  ["Enum", "IntEnum", "StrEnum", "Flag", "IntFlag", "ReprEnum"]

def tupleBases : List Text :=
  ["NamedTuple", "tuple"]

/-- The shape that a base class of a given name gives, if it is none with named fields. -/
def Shape.ofName? (name : Text) : Option Shape :=
  if enumerationBases.contains name then
    some .enumeration
  else if tupleBases.contains name then some .tuple
  else if name == "TypedDict" then some .mapping
  else none

/-- What is wrong with a base class, if anything is. -/
def baseProblem (base : Argument) : Option Cause :=
  if base.stars ≠ 0 then none
  else
    (Shape.ofName? base.value.lastSegment).map fun shape =>
      .unsupportedBase shape (render base.tokens)

/-! ## The body -/

/-- What a statement of a class body contributes. -/
inductive BodyEntry
  | field (name : Text) (type : Expression) (typeTokens : List Token)
  | member (name : Text)

/-- What a small statement contributes. -/
def Source.Item.entries (item : Item) : List BodyEntry :=
  match item.form with
  | .declaration (.name name) type typeTokens =>
    if isNonFieldType (render typeTokens) then [.member name]
    else [.field name type typeTokens]
  | .assignment targets =>
    targets.filterMap fun target =>
      match target with
      | .name name => some (.member name)
      | _ => none
  | _ => []

def Source.Statement.entries : Statement → List BodyEntry
  | .simple _ items _ => items.flatMap (·.entries)
  | .definition head _ => [.member head.role.name]
  | .compound _ => []

/-- What a class body contributes, in textual order. -/
def Source.Suite.entries : Suite → List BodyEntry
  | .inline items _ => items.flatMap (·.entries)
  | .block _ _ body _ => body.flatMap (·.entries)
  | .cases _ _ _ _ => []

/-- The fields among entries, numbered from a given place on. -/
def fieldsFrom (order : Nat) : List BodyEntry → List Field
  | [] => []
  | .member _ :: later => fieldsFrom order later
  | .field name type typeTokens :: later =>
    ⟨name, render typeTokens, order, .ofName name, isSkipped type⟩ :: fieldsFrom (order + 1) later

def membersOf : List BodyEntry → List Text
  | [] => []
  | .member name :: later => name :: membersOf later
  | .field _ _ _ :: later => membersOf later

/-! ## Generic parameters -/

def genericBase? (bases : List Argument) : Option (List GenericParameter × Text) :=
  bases.findSome? fun base =>
    match base.value with
    | .subscript value elements =>
      if Expression.lastSegment (.subscript value elements) == "Generic" then
        some (elements.map fun (_, tokens) => ⟨render tokens, render tokens⟩, render base.tokens)
      else none
    | _ => none

/-- How a class declares its generic parameters, which they are, and the base that declares them. -/
def Source.ClassHead.generics (head : ClassHead) :
    GenericStyle × List GenericParameter × Option Text :=
  match head.typeParameters with
  | _ :: _ =>
    (.typeParameters,
      head.typeParameters.map (fun parameter => ⟨parameter.applied, render parameter.tokens⟩), none)
  | [] =>
    match genericBase? head.bases with
    | some (parameters, base) => (.genericBase, parameters, some base)
    | none => (.none, [], none)

/-! ## Models -/

/-- The model of a class, with its place attached to diagnostics. -/
def extractClass (head : Source.Definition) (shape : ClassHead) (body : Suite)
    (location : Option Location) : Except Diagnostic RecordModel :=
  match shape.bases.findSome? baseProblem with
  | some cause => .error ⟨cause, some shape.name, location⟩
  | none =>
    let entries := body.entries
    match fieldsFrom 0 entries with
    | [] => .error ⟨.noFields, some shape.name, location⟩
    | fields =>
      let (style, parameters, base) := shape.generics
      .ok
        { typeName := shape.name
          genericStyle := style
          genericParameters := parameters
          genericBase := base
          fields
          capabilities := .ofList head.capabilities
          memberNames := membersOf entries
          location }

def extract (statement : Statement) (location : Option Location) : Except Diagnostic RecordModel :=
  match statement with
  | .definition head body =>
    match head.role with
    | .classDefinition shape => extractClass head shape body location
    | .functionDefinition function =>
      .error ⟨.notAClass statement.kindName, some function.name, location⟩
  | other => .error ⟨.notAClass other.kindName, none, location⟩

/-- Whether a statement is a class definition, of a given name if one is given. -/
def isClassNamed (wanted : Option Text) : Statement → Bool
  | .definition head _ =>
    match head.role with
    | .classDefinition shape => wanted.all (· == shape.name)
    | .functionDefinition _ => false
  | _ => false

/-- Whether a statement is more than a line of small statements. -/
def isCompound : Statement → Bool
  | .simple _ _ _ => false
  | _ => true

/-- The model of the first class at the top level of a file, or of the first one of a given name. -/
def extractFrom (file : SourceFile) (typeName : Option Text) (location : Option Location) :
    Except Diagnostic RecordModel :=
  match file.body.find? (isClassNamed typeName), typeName with
  | some statement, _ => extract statement location
  | none, some name => .error ⟨.noClassNamed name, some name, location⟩
  | none, none =>
    match file.body.find? isCompound with
    | some statement => extract statement location
    | none => .error ⟨.noClass, none, location⟩

end OpenRecord
