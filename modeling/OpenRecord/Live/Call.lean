import OpenRecord.Live.Access

namespace OpenRecord
namespace Live

/-!
# Running emitted code

Terms and commands of emitted code are run as they are printed: names are looked up in the function,
then in the scopes around it and last among the names that are bound everywhere.  Calls may lead
from one function into another, so that running is bounded by a depth; the function of the caller,
the *callback*, is a parameter.
-/

open Code

/-! ## Names -/

/-- The names that are bound everywhere. -/
def builtin? (name : Text) : Option Value :=
  if name == "object" then some (.facility .rootType)
  else if name == "property" then some (.facility .propertyMaker)
  else if name == "classmethod" then some (.facility .classMethodMaker)
  else
    (ErrorKind.builtin.find? (·.label == name)).map fun kind => .facility (.errorType kind)

/-- The names at a place in a function: its scopes, the names that it binds somewhere, and the
values of those that it has bound already. -/
structure Frame where
  scopes : List Nat
  owned : List Text
  locals : NameTable Value

/-- A name in the scopes around a function. -/
def resolveOutside (scopes : List Nat) (name : Text) : Action Value := do
  let session ← get
  match (session.nameIn? scopes name).or (builtin? name) with
  | some value => return value
  | none => fail (.unboundName name)

def resolve (frame : Frame) (name : Text) : Action Value :=
  match frame.locals.get? name with
  | some value => return value
  | none =>
    if frame.owned.contains name then fail (.unboundLocal name)
    else resolveOutside frame.scopes name

/-! ## Terms -/

mutual

def evaluate (call : Caller) (frame : Frame) : Term → Action Value
  | .name identifier => resolve frame identifier
  | .absent => return .absent
  | .boolean value => return .boolean value
  | .string chars => return .text chars
  | .attribute target identifier => do
    let target ← evaluate call frame target
    readAttribute call target identifier
  | .call function arguments => do
    let function ← evaluate call frame function
    let arguments ← evaluateAll call frame arguments
    call function arguments []
  | .construct function arguments => do
    let function ← evaluate call frame function
    let arguments ← evaluateNamed call frame arguments
    call function [] arguments

def evaluateAll (call : Caller) (frame : Frame) : List Term → Action (List Value)
  | [] => return []
  | first :: later => do
    let value ← evaluate call frame first
    let values ← evaluateAll call frame later
    return value :: values

def evaluateNamed (call : Caller) (frame : Frame) :
    List (Text × Term) → Action (List (Text × Value))
  | [] => return []
  | (name, first) :: later => do
    let value ← evaluate call frame first
    let values ← evaluateNamed call frame later
    return (name, value) :: values

end

/-! ## Commands -/

/-- How a command ends: the next one goes on with some names bound, or the function returns. -/
inductive Completion
  | goesOn (locals : NameTable Value)
  | returns (value : Value)

/-- Run an action and afterwards another one, however the first ends.  The first one decides what
comes of both, unless the second fails. -/
def ending {α : Type} (body : Action α) (cleanup : Action Unit) : Action α := do
  match ← tryCatch (Except.ok <$> body) (fun fault => return Except.error fault) with
  | .ok value => do
    cleanup
    return value
  | .error fault => do
    cleanup
    throw fault

mutual

def run (call : Caller) (frame : Frame) : Command → Action Completion
  | .assign (.name identifier) value => do
    let value ← evaluate call frame value
    return .goesOn (frame.locals.put identifier value)
  | .assign (.attribute target identifier) value => do
    let value ← evaluate call frame value
    let target ← evaluate call frame target
    writeAttribute call target identifier value
    return .goesOn frame.locals
  | .assign _ _ => return .goesOn frame.locals
  | .evaluate value => do
    let _ ← evaluate call frame value
    return .goesOn frame.locals
  | .return value => do
    let value ← evaluate call frame value
    return .returns value
  | .whenAbsent value body => do
    let value ← evaluate call frame value
    if value = .absent then runAll call frame body else return .goesOn frame.locals
  | .raise value => do
    match ← evaluate call frame value with
    | .error kind words => fail (.raised kind words)
    | _ => fail .notAnError
  | .finally body cleanup =>
    ending (runAll call frame body) do
      let _ ← runAll call frame cleanup
      return ()

/-- Run consecutive commands up to the first one that returns. -/
def runAll (call : Caller) (frame : Frame) : List Command → Action Completion
  | [] => return .goesOn frame.locals
  | first :: later => do
    match ← run call frame first with
    | .goesOn locals => runAll call { frame with locals } later
    | .returns value => return .returns value

end

/-! ## Arguments -/

/-- A parameter as a caller sees it. -/
structure Formal where
  name : Text
  default : Option Value
  byNameOnly : Bool

/-- A parameter that has to be given. -/
def Formal.required (name : Text) : Formal :=
  ⟨name, none, false⟩

/-- The first argument by name that no parameter takes, or that is given by position as well. -/
def namedProblem (formals : List Formal) (placed : List Text) (named : List (Text × Value)) :
    Option ArgumentProblem :=
  named.findSome? fun (name, _) =>
    if !formals.any (·.name == name) then some (.unexpected name)
    else if placed.contains name then some (.repeated name)
    else none

/-- The parameters without a default that are not given. -/
def missingFormals (formals : List Formal) (given : List (Text × Value)) : List Text :=
  (formals.filter fun formal =>
    formal.default.isNone && (lookupName formal.name given).isNone).map (·.name)

def bindArguments (formals : List Formal) (positional : List Value)
    (named : List (Text × Value)) : Except ArgumentProblem (NameTable Value) :=
  let placed := formals.filter (!·.byNameOnly)
  let given := (placed.map (·.name)).zip positional
  match namedProblem formals (given.map (·.1)) named with
  | some problem => .error problem
  | none =>
    if placed.length < positional.length then .error (.surplus placed.length positional.length)
    else
      match missingFormals placed (given ++ named),
        missingFormals (formals.filter (·.byNameOnly)) (given ++ named) with
      | [], [] =>
        .ok <| .ofList <| formals.filterMap fun formal =>
          ((lookupName formal.name (given ++ named)).or formal.default).map (formal.name, ·)
      | [], names => .error (.missingByName names)
      | names, _ => .error (.missing names)

/-- The values of parameters, or a failure of the function. -/
def takeArguments (function : Text) (formals : List Formal) (positional : List Value)
    (named : List (Text × Value)) : Action (NameTable Value) :=
  match bindArguments formals positional named with
  | .ok values => return values
  | .error problem => fail (.arguments function problem)

/-! ## Functions and classes -/

/-- The values of the parameters of a function, or its failure.  Arguments that no parameter takes
are dropped if the function takes any. -/
def takeParameters (function : LiveFunction) (positional : List Value)
    (named : List (Text × Value)) : Action (NameTable Value) :=
  let formals := function.parameters.map Formal.required
  if function.variadic then
    takeArguments function.qualifiedName formals (positional.take formals.length)
      (named.filter fun entry => function.parameters.contains entry.1)
  else takeArguments function.qualifiedName formals positional named

def runFunction (call : Caller) (function : LiveFunction) (positional : List Value)
    (named : List (Text × Value)) : Action Value := do
  let locals ← takeParameters function positional named
  let owned := function.parameters ++ boundInCommands function.body
  match ← runAll call ⟨function.scopes, owned, locals⟩ function.body with
  | .returns value => return value
  | .goesOn _ => return .absent

/-- An object of a class with some attributes, made without initialising it. -/
def allocateObject (type : Nat) (attributes : List (Text × Value)) : Action Value := do
  let session ← get
  let foreign := (session.lineage type).any fun index =>
    match session.types[index]? with
    | some live => live.foreignBase.isSome
    | none => false
  if foreign then fail (.notAllocatable (session.nameOf type))
  else allocate (.object type attributes)

/-- The name of the attribute that initialises objects. -/
def initializerName : Text := "__init__"

/-- The parameter that stands for the object in a derived initialiser. -/
def ownParameter (fields : List RecordField) : Text :=
  if fields.any (·.name == "self") then "__dataclass_self__" else "self"

/-- The parameters of a derived initialiser: those by position come first. -/
def initializerFormals (fields : List RecordField) : List Formal :=
  .required (ownParameter fields) ::
    (fields.filter (!·.hidden)).map fun field => ⟨field.name, field.default, field.keywordOnly⟩

/-- Write the fields of a new object one after the other. -/
def writeFields (call : Caller) (target : Value) (raw : Bool) (values : NameTable Value) :
    List RecordField → Action Unit
  | [] => return ()
  | field :: later => do
    match values.get? field.name with
    | some value =>
      if field.initOnly || field.hidden then pure ()
      else if raw then rawWrite call target field.name value
      else writeAttribute call target field.name value
    | none => pure ()
    writeFields call target raw values later

/-- Initialise a new object. -/
def initializeObject (call : Caller) (type : Nat) (target : Value) (positional : List Value)
    (named : List (Text × Value)) : Action Unit := do
  let session ← get
  match session.attribute? type initializerName with
  | some (.initializer fields raw) => do
    let function := session.qualifiedNameOf type ++ '.' :: initializerName
    let values ← takeArguments function (initializerFormals fields) (target :: positional) named
    writeFields call target raw values fields
  | some (.value value) => do
    let _ ← call (boundTo target type value) positional named
    return ()
  | _ =>
    if positional.isEmpty && named.isEmpty then return ()
    else fail (.arguments (session.nameOf type) .noneTaken)

/-- A new object of a class. -/
def construct (call : Caller) (type : Nat) (positional : List Value)
    (named : List (Text × Value)) : Action Value := do
  let target ← allocate (.object type [])
  initializeObject call type target positional named
  return target

/-! ## Copies -/

/-- The name of the attribute that takes over the fields of another object. -/
def transferName : Text := "__setstate__"

def transferFields (call : Caller) (source target : Value) : List Text → Action Unit
  | [] => return ()
  | name :: later => do
    let value ← readAttribute call source name
    rawWrite call target name value
    transferFields call source target later

def writeAll (call : Caller) (target : Value) : List (Text × Value) → Action Unit
  | [] => return ()
  | (name, value) :: later => do
    writeAttribute call target name value
    writeAll call target later

/-- A copy of an object with the same attributes.  Those that have slots are written through the
guards of the class, all others past them. -/
def copyObject (call : Caller) (source : Value) (type : Nat)
    (attributes : List (Text × Value)) : Action Value := do
  let session ← get
  match session.attribute? type transferName with
  | some (.transfer names) => do
    let target ← allocateObject type []
    transferFields call source target names
    return target
  | _ => do
    let slotted := fun (entry : Text × Value) =>
      session.attribute? type entry.1 == some .slot
    let target ← allocateObject type (attributes.filter fun entry => !slotted entry)
    writeAll call target (attributes.filter slotted)
    return target

/-- A copy of a value that shares all parts with it. -/
def shallowCopy (call : Caller) (source : Value) : Action Value := do
  let session ← get
  match source with
  | .cell address =>
    match session.cells[address]? with
    | some (.object type attributes) => copyObject call source type attributes
    | some cell => allocate cell
    | none => return source
  | _ => return source

/-! ## Calls -/

def callFacility (callback : Value → Action Value) (call : Caller) (facility : Facility)
    (positional : List Value) (named : List (Text × Value)) : Action Value :=
  match facility, positional, named with
  | .callback, [argument], [] => callback argument
  | .allocate, [.type type], [] => allocateObject type []
  | .rawWrite, [target, .text name, value], [] => do
    rawWrite call target name value
    return .absent
  | .shallowCopy, [source], [] => shallowCopy call source
  | .fieldMaker, _, _ => return .facility .fieldMark
  | .errorType kind, [.text words], [] => return .error kind words
  | _, _, _ => fail (.notCallable facility.typeName)

def callValue (callback : Value → Action Value) (call : Caller) : Caller :=
  fun target positional named => do
    let session ← get
    match target with
    | .function index =>
      match session.functions[index]? with
      | some function => runFunction call function positional named
      | none => fail (.notCallable (session.typeName target))
    | .bound index receiver =>
      match session.functions[index]? with
      | some function => runFunction call function (receiver :: positional) named
      | none => fail (.notCallable (session.typeName target))
    | .type type => construct call type positional named
    | .facility facility => callFacility callback call facility positional named
    | _ => fail (.notCallable (session.typeName target))

/-- Call a value; calls may lead into each other up to a depth. -/
def invoke (callback : Value → Action Value) : Nat → Caller
  | 0 => fun _ _ _ => fail .tooDeep
  | depth + 1 => callValue callback (invoke callback depth)

/-- The depth up to which calls may lead into each other. -/
def maximalDepth : Nat := 1000

/-- Call a value on behalf of a caller with a callback. -/
def callWith (callback : Value → Action Value) : Caller :=
  invoke callback maximalDepth

/-- Call a value on behalf of a caller without a callback. -/
def callAlone : Caller :=
  callWith fun _ => fail (.notCallable Facility.callback.typeName)

end Live
end OpenRecord
