import OpenRecord.Expansion.Expander
import OpenRecord.Live.Declaration
import OpenRecord.Live.Step

namespace OpenRecord
namespace Live

/-!
# Loading a module

A declared module is loaded class by class.  Either its decorators install the capabilities as each
class is made, or the text of the module is expanded first and its classes come with the emitted
code in them.  What a module binds besides its classes is known by name and, as far as it is plain
data, by value.
-/

/-! ## Names -/

def initialNames : NameTable Value :=
  .ofList
    [("__name__", .text moduleName), ("__doc__", .absent), ("__package__", .text []),
      ("__loader__", .absent), ("__spec__", .absent), ("__file__", .text moduleFile),
      ("__cached__", .absent), ("__builtins__", .absent),
      ("KW_ONLY", .facility (.other "type")), ("InitVar", .facility (.other "type")),
      ("dataclass", .facility .derive), ("Annotated", .facility (.other "type")),
      ("Any", .facility (.other "type")), ("ClassVar", .facility (.other "_SpecialForm")),
      ("Generic", .facility (.other "type")), ("List", .facility (.other "_GenericAlias")),
      ("Optional", .facility (.other "_SpecialForm")), ("TypeVar", .facility (.other "type")),
      ("GeneratorConfig", .facility (.other "type")), ("Skip", .facility (.other "type")),
      ("destructure", .facility (.other "function")),
      ("destructure_ref", .facility (.other "function")),
      ("mutation", .facility (.other "function")), ("T", .facility (.other "TypeVar"))]

def importedModule (dotted : Text) : Value :=
  .facility <|
    if dotted == "copy" then .copyModule
    else if dotted == "dataclasses" then .dataclassesModule
    else if dotted == "typing" then .typingModule
    else .other "module"

/-- The number that decimal digits stand for. -/
def digitsValue (digits : Text) : Nat :=
  digits.foldl (fun value c => 10 * value + (c.toNat - '0'.toNat)) 0

def quotedText? : Text → Option Text
  | [] => none
  | mark :: later =>
    match later.reverse with
    | last :: inner =>
      if (mark = '\x27' || mark = '\x22') && last = mark then some inner.reverse else none
    | [] => none

/-- The value of an expression, as far as it is plain data. -/
def plainValue (text : Text) : Value :=
  if text == "None" then .absent
  else if text == "True" then .boolean true
  else if text == "False" then .boolean false
  else if !text.isEmpty && text.all Char.isDigit then .whole (digitsValue text)
  else
    match quotedText? text with
    | some chars => .text chars
    | none => .facility (.other "object")

/-! ## Base classes -/

/-- The names of classes from outside whose objects have to be initialised. -/
def foreignBases : List Text :=
  ["tuple", "dict", "list", "set", "frozenset", "int", "float", "complex", "str", "bytes",
    "bytearray", "Exception", "BaseException"]

/-- The ancestors that a base class brings in, and the class from outside if it is one. -/
def ancestorsOf : Source.Expression → Action (List Nat × Option Text)
  | .name name => do
    let session ← get
    match session.module.get? name with
    | some (.type type) => return (session.lineage type, none)
    | some _ => return ([], none)
    | none =>
      if foreignBases.contains name then return ([], some name)
      else if (builtin? name).isSome then return ([], none)
      else fail (.unboundName name)
  | .subscript value _ => ancestorsOf value
  | _ => return ([], none)

/-- The ancestors that the text of a base class brings in. -/
def ancestorsOfText (base : Option Text) : Action (List Nat × Option Text) :=
  match base.bind Source.Expression.parse? with
  | some (value, _) => ancestorsOf value
  | none => return ([], none)

/-! ## Globals -/

/-- Bind the names of a small statement. -/
def loadItem (item : Source.Item) : Action Unit :=
  match item.form with
  | .imports aliases =>
    aliases.forM fun imported =>
      bindName moduleScope imported.boundName (importedModule imported.dotted)
  | .assignment _ => do
    let behind := item.tokens.reverse.takeWhile fun token => token.text != ['=']
    let value := plainValue (Source.render behind.reverse)
    item.boundNames.forM fun name => bindName moduleScope name value
  | _ => item.boundNames.forM fun name => bindName moduleScope name (.facility (.other "object"))

def loadPlainClass (shape : Source.ClassHead) : Action Unit := do
  let (ancestors, foreignBase) ←
    match shape.bases with
    | first :: _ => ancestorsOf first.value
    | [] => pure ([], none)
  let type ← addType (plainType shape.name shape.name ancestors foreignBase ⟨.empty, [], none⟩)
  bindName moduleScope shape.name (.type type)

def loadStatement : Source.Statement → Action Unit
  | .simple _ items _ => items.forM loadItem
  | .definition head _ =>
    match head.role with
    | .classDefinition shape => loadPlainClass shape
    | .functionDefinition function =>
      bindName moduleScope function.name (.facility (.other "function"))
  | .compound _ => return ()

/-- Bind the names of lines of code. -/
def loadGlobals (lines : List Text) : Action Unit :=
  match Source.SourceFile.parse? (lines.flatMap (· ++ ['\n'])) with
  | some file => file.body.forM loadStatement
  | none => throw .unreadable

/-- Bind the modules that a file imports. -/
def loadImports (file : Source.SourceFile) : Action Unit :=
  file.body.forM fun statement =>
    match statement with
    | .simple _ items _ => items.forM fun item =>
      match item.form with
      | .imports _ => loadItem item
      | _ => return ()
    | _ => return ()

/-! ## Classes -/

/-- A name in the body of a class: one with two leading underscores belongs to the class alone. -/
def privateName (typeName name : Text) : Text :=
  match Visibility.ofName name with
  | .mangled => '_' :: typeName.dropWhile (· == '_') ++ name
  | _ => name

/-- The fields among declared names with their types; those behind a mark are given by name. -/
def declaredFields (byNameOnly : Bool) : List (Text × Text) → List RecordField
  | [] => []
  | (name, type) :: later =>
    let head := typeHead type
    if head == "KW_ONLY" then declaredFields true later
    else if head == "ClassVar" then declaredFields byNameOnly later
    else ⟨name, none, head == "InitVar", byNameOnly, false⟩ :: declaredFields byNameOnly later

def loadDefaults (typeName : Text) : List FieldDeclaration → Action (NameTable Attribute)
  | [] => return .empty
  | field :: later => do
    let first ← match field.default with
      | some literal => do
        let value ← literal.make
        pure [(privateName typeName field.name, Attribute.value value)]
      | none => pure []
    let others ← loadDefaults typeName later
    return (NameTable.ofList first).putAll others.entries

def Extra.function? (qualifiedName : Text) : Extra → Option (Text × LiveFunction)
  | .failingInitializer => some <|
    (initializerName,
      { qualifiedName := qualifiedName ++ '.' :: initializerName
        parameters := ["self"]
        variadic := true
        body := [.raise (.call (.name "RuntimeError") [.string initializerRefusal])]
        scopes := [moduleScope]
        owner := none })
  | .refusingGuard => some <|
    (guardName,
      { qualifiedName := qualifiedName ++ '.' :: guardName
        parameters := ["self", "name", "value"]
        variadic := false
        body := [.raise (.call (.name "AttributeError") [.string guardRefusal])]
        scopes := [moduleScope]
        owner := none })
  | .idleMethod name => some <|
    (name,
      { qualifiedName := qualifiedName ++ '.' :: name
        parameters := ["self"]
        variadic := false
        body := [.return .absent]
        scopes := [moduleScope]
        owner := none })
  | .fieldSlots => none

/-- Add the methods among extras to attributes. -/
def loadExtras (typeName qualifiedName : Text) (attributes : NameTable Attribute) :
    List Extra → Action (NameTable Attribute)
  | [] => return attributes
  | extra :: later =>
    match extra.function? qualifiedName with
    | none => loadExtras typeName qualifiedName attributes later
    | some (name, function) => do
      let index ← addFunction function
      loadExtras typeName qualifiedName
        (attributes.put (privateName typeName name) (.value (.function index))) later

/-- Add the methods among artifacts to attributes. -/
def loadMethods (scopes : List Nat) (qualifiedName : Text) (attributes : NameTable Attribute) :
    List Artifact → Action (NameTable Attribute)
  | [] => return attributes
  | artifact :: later =>
    match artifact.definition with
    | .type _ => loadMethods scopes qualifiedName attributes later
    | .method method => do
      let found ←
        methodAttribute callAlone attributes scopes (qualifiedName ++ '.' :: method.name) method
      loadMethods scopes qualifiedName (attributes.put method.name found) later

def ClassDeclaration.slots? (declaration : ClassDeclaration) : Option (List Text) :=
  if declaration.extras.any fun extra => match extra with | .fieldSlots => true | _ => false then
    some (declaration.fields.map fun field => privateName declaration.name field.name)
  else none

def addSlots (attributes : NameTable Attribute) (slots : Option (List Text)) :
    Action (NameTable Attribute) :=
  match slots with
  | none => return attributes
  | some names =>
    match names.find? attributes.contains with
    | some name => fail (.slotWithDefault name)
    | none => return attributes.putAll (names.map fun name => (name, .slot))

/-- Make a declared class, with the methods among some artifacts in its body. -/
def loadClassBody (declaration : ClassDeclaration) (scopes : List Nat)
    (artifacts : List Artifact) : Action Nat := do
  let qualifiedName := declaration.qualifiedName
  let (ancestors, foreignBase) ← ancestorsOfText declaration.base
  let defaults ← loadDefaults declaration.name declaration.fields
  let extended ← loadExtras declaration.name qualifiedName defaults declaration.extras
  let complete ← loadMethods scopes qualifiedName extended artifacts
  let live :=
    plainType declaration.name qualifiedName ancestors foreignBase
      ⟨complete, [], declaration.slots?⟩
  let session ← get
  let checked ← liftFailure (checkSlots session live)
  let attributes ← addSlots complete declaration.slots?
  let live := { checked with attributes }
  match declaration.derivation with
  | none => addType live
  | some style => do
    let names := declaration.fields.map fun field =>
      (privateName declaration.name field.name, field.type)
    let fields := declaredFields false (NameTable.ofList names).entries
    let live ← derived style fields live
    addType live

/-- Bind what stands around a class before the class is made. -/
def openNesting (declaration : ClassDeclaration) : Action Unit :=
  match declaration.nesting with
  | .inFunction =>
    bindName moduleScope declaration.functionName (.facility (.other "function"))
  | _ => return ()

/-- Bind what stands around a class after the class has been made, and the class itself. -/
def closeNesting (declaration : ClassDeclaration) (type : Nat) : Action Unit := do
  match declaration.nesting with
  | .inClass =>
    bindName moduleScope declaration.outerName (.facility (.other "type"))
  | _ => pure ()
  bindName moduleScope declaration.name (.type type)

/-! ## Decorators -/

/-- A decorator that applies a capability, with its own settings if it has some. -/
structure Request where
  capability : Capability
  settings : Option Settings

/-- The settings that are written among tokens as names with literals. -/
def settingsAmong : List Source.Token → List (Text × SettingValue)
  | key :: sign :: value :: later =>
    let others := settingsAmong (sign :: value :: later)
    if sign.text = ['='] then
      match plainValue value.text with
      | .text chars => (key.text, .string chars) :: others
      | .boolean flag => (key.text, .boolean flag) :: others
      | .whole number => (key.text, .whole number) :: others
      | _ => others
    else others
  | _ => []

def calledFunction : Source.Expression → Source.Expression
  | .call function => function
  | value => value

/-- The request of a decorator; other decorators only have to be bound. -/
def requestOf (decorator : Text) : Action (Option Request) := do
  match Source.Expression.parse? decorator with
  | none => throw .unreadable
  | some (value, tokens) =>
    let name := (calledFunction value).dottedName
    match Capability.ofLabel? name with
    | some capability =>
      if tokens.any fun token => token.text == "GeneratorConfig" then
        match Settings.check (.ofList (settingsAmong tokens)) with
        | .ok settings => return some ⟨capability, some settings⟩
        | .error faults => throw (.invalid faults)
      else return some ⟨capability, none⟩
    | none => do
      let _ ← resolveOutside [moduleScope] (Text.before '.' name)
      return none

def requestsOf : List Text → Action (List Request)
  | [] => return []
  | first :: later => do
    let request ← requestOf first
    let others ← requestsOf later
    return request.toList ++ others

/-- Whether a decorator applies a capability when the text of its class is expanded. -/
def isCapabilityText (decorator : Text) : Bool :=
  match Source.Expression.parse? decorator with
  | some (value, _) => (Capability.ofLabel? (calledFunction value).lastSegment).isSome
  | none => false

/-- Apply the requests of a class, the innermost one first. -/
def applyRequests (type : Nat) : List Request → Action Unit
  | [] => return ()
  | first :: later => do
    applyRequests type later
    applyToType first.capability first.settings type

/-! ## Loading -/

/-- Make a declared class whose decorators install the capabilities. -/
def loadDecorated (declaration : ClassDeclaration) : Action Unit := do
  openNesting declaration
  let requests ← requestsOf declaration.decorators
  let type ← loadClassBody declaration [moduleScope] []
  applyRequests type requests
  closeNesting declaration type

/-- Make the types among artifacts beside their class. -/
def loadTypes (scopes : List Nat) (front : Text) : List Artifact → Action Unit
  | [] => return ()
  | artifact :: later => do
    match artifact.placement with
    | .inClass => pure ()
    | .besideClass => do
      let value ← define callAlone scopes front artifact.definition
      bindName (scopes.headD moduleScope) artifact.name value
    loadTypes scopes front later

/-- Make a declared class with emitted code in it and beside it. -/
def loadExpanded (declaration : ClassDeclaration) (artifacts : List Artifact) : Action Unit := do
  openNesting declaration
  let scopes ← match declaration.nesting with
    | .inFunction => do
      let scope ← addScope .empty
      pure [scope, moduleScope]
    | _ => pure [moduleScope]
  let type ← loadClassBody declaration scopes artifacts
  bindName (scopes.headD moduleScope) declaration.name (.type type)
  loadTypes scopes declaration.front artifacts
  closeNesting declaration type

/-- Make declared classes with the emitted code of those that request any. -/
def loadAllExpanded : List ClassDeclaration → List (List Artifact) → Action Unit
  | [], _ => return ()
  | first :: later, artifacts =>
    if first.decorators.any isCapabilityText then do
      loadExpanded first (artifacts.headD [])
      loadAllExpanded later artifacts.tail
    else do
      loadExpanded first []
      loadAllExpanded later artifacts

inductive LoadMode
  /-- By its decorators; its file can be read or not. -/
  | decorated (readable : Bool)
  /-- After expansion of its text. -/
  | expanded (settings : Settings)

def setSource (source : Option Source.SourceFile) : Action Unit :=
  modify fun session => { session with source }

def loadByDecorators (declaration : ModuleDeclaration) (readable : Bool) : Action Unit := do
  match Source.SourceFile.parse? declaration.text with
  | none => throw .unreadable
  | some file => do
    setSource (if readable then some file else none)
    modify fun session => { session with scopes := [initialNames] }
    loadGlobals declaration.globals
    declaration.classes.forM loadDecorated

/-- The artifacts of the classes among outcomes. -/
def artifactLists (outcomes : List Outcome) : List (List Artifact) :=
  outcomes.map fun outcome =>
    match outcome.result with
    | .ok artifacts => artifacts
    | .error _ => []

def loadByExpansion (declaration : ModuleDeclaration) (settings : Settings) : Action Unit := do
  let (outcomes, result) := expandWithOutcomes settings declaration.text (some moduleFile)
  match result with
  | .error _ => throw .unreadable
  | .ok expansion =>
    if !expansion.success then fail (.expansionFailed expansion.errors)
    else
      match Source.SourceFile.parse? expansion.code with
      | none => throw .unreadable
      | some file => do
        setSource (some file)
        modify fun session => { session with scopes := [initialNames] }
        loadImports file
        loadGlobals declaration.globals
        let requesting := declaration.classes.filter (·.decorators.any isCapabilityText)
        let lists := artifactLists outcomes
        loadAllExpanded declaration.classes (lists.drop (lists.length - requesting.length))

def load (declaration : ModuleDeclaration) : LoadMode → Action Unit
  | .decorated readable => loadByDecorators declaration readable
  | .expanded settings => loadByExpansion declaration settings

def runSession (declaration : ModuleDeclaration) (mode : LoadMode) (steps : List Step) :
    Except Fault (List Reply) :=
  match (load declaration mode).run Session.empty with
  | (.error fault, _) => .error fault
  | (.ok (), session) => ((takeSteps steps).run session).1

end Live
end OpenRecord
