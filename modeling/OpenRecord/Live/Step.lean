import OpenRecord.Live.Installation
import OpenRecord.Live.Literal

namespace OpenRecord
namespace Live

/-!
# Steps of a session

A step makes, changes, compares or describes values.  The two operations that take a callback run
*edits* on its argument, of which one takes a step itself.  A step that fails leaves what it has
done so far, and what its callbacks noted is part of its reply either way.
-/

/-- A variable and the names of attributes to follow from its value. -/
structure Reference where
  holder : Text
  path : List Text

/-- A class by name, a value, or a function that is made for the purpose. -/
inductive Target
  | ofClass (name : Text)
  | value (literal : Literal)
  | function

/-- The class of a companion: that of another class, or a name of the module. -/
inductive CompanionSource
  | of (className : Text)
  | named (type : Text)

mutual

inductive Step
  | make (holder : Text) (className : Text) (arguments : List (Text × Literal))
  | intoCompanion (holder : Text) (record : Text)
  | fromCompanion (holder : Text) (className : Text) (companion : Text)
  | makeCompanion (holder : Text) (source : CompanionSource) (positional : List Literal)
      (named : List (Text × Literal))
  | view (holder : Text) (record : Text)
  | reconstruct (holder : Text) (record : Text) (edits : List Edit)
  | substitute (record : Text) (edits : List Edit)
  | dump (holder : Text)
  | write (holder : Text)
  | read (place : Reference)
  | has (place : Reference)
  | assign (place : Reference) (value : Literal)
  | append (place : Reference) (value : Literal)
  | equal (left right : Reference)
  | same (left right : Reference)
  | apply (capability : Capability) (target : Target) (called : Bool)
      (settings : Option SettingValues)
  | types (className : Text)
  | companion (className : Text)
  | model (className : Text)
  | source (target : Target)
  | methods (className : Text)
  | published

/-- What a callback does with its argument. -/
inductive Edit
  | assign (name : Text) (value : Literal)
  | read (name : Text)
  | append (name : Text) (value : Literal)
  | swap (first second : Text)
  /-- Note an attribute of the record that the operation was called on. -/
  | readRecord (name : Text)
  | noteType
  | keep (holder : Text)
  | raise (words : Text)
  | step (step : Step)

end

/-! ## Parts of steps -/

def setVariable (name : Text) (value : Value) : Action Unit :=
  modify fun session => { session with held := session.held.put name value }

def follow (value : Value) : List Text → Action Value
  | [] => return value
  | name :: later => do
    let next ← readAttribute callAlone value name
    follow next later

def valueAt (place : Reference) : Action Value := do
  let value ← variableValue place.holder
  follow value place.path

def moduleAttribute (name : Text) : Action Value := do
  let session ← get
  match session.module.get? name with
  | some value => return value
  | none => fail (.noModuleAttribute moduleName name)

def classNamed (name : Text) : Action Nat := do
  match ← moduleAttribute name with
  | .type type => return type
  | value => do
    let session ← get
    fail (.notAClass (session.typeName value))

/-- An action that makes an object.  That its arguments do not fit is told without details. -/
def making {α : Type} (action : Action α) : Action α :=
  tryCatch action fun fault =>
    match fault with
    | .failed failure => if failure.kind = .type then fail .unsuitable else throw fault
    | _ => throw fault

/-- Write several attributes past the guards of a class. -/
def rawWriteAll (target : Value) : List (Text × Value) → Action Unit
  | [] => return ()
  | (name, value) :: later => do
    rawWrite callAlone target name value
    rawWriteAll target later

/-- An object of a class: through its initialiser if special methods are derived from its fields,
else with attributes written directly. -/
def makeObject (className : Text) (arguments : List (Text × Literal)) : Action Value := do
  let type ← classNamed className
  let values ← makeMembers arguments
  let session ← get
  let isDerived := (session.lineage type).any fun index =>
    ((session.types[index]?).bind (·.fields)).isSome
  if isDerived then callAlone (.type type) [] values
  else do
    let target ← allocateObject type []
    rawWriteAll target values
    return target

def makeCompanionObject (source : CompanionSource) (positional : List Literal)
    (named : List (Text × Literal)) : Action Value := do
  let type ← match source with
    | .of name => do
      let type ← classNamed name
      companionOf type
    | .named name => moduleAttribute name
  let positional ← makeAll positional
  let named ← makeMembers named
  callAlone type positional named

/-- Give an object to a variable and show it in full. -/
def keepAndDump (holder : Text) (value : Value) : Action Answer := do
  setVariable holder value
  .dump <$> dump value

def callMethod (call : Caller) (holder method : Text) (arguments : List Value) :
    Action Value := do
  let target ← variableValue holder
  callOn call target method arguments

/-- The items of a list; other values have no way to append. -/
def itemsOf (session : Session) (target : Value) : Except Failure (Nat × List Value) :=
  match target with
  | .cell address =>
    match session.cells[address]? with
    | some (.list items) => .ok (address, items)
    | _ => .error (.noAttribute (session.typeName target) "append")
  | _ => .error (.noAttribute (session.typeName target) "append")

/-- A failure of a pure computation as one of an action. -/
def liftFailure {α : Type} : Except Failure α → Action α
  | .ok value => return value
  | .error failure => fail failure

/-- Put a value at the end of a list. -/
def appendTo (target : Value) (value : Literal) : Action Unit := do
  let session ← get
  let _ ← liftFailure (itemsOf session target)
  let value ← value.make
  let session ← get
  let (address, items) ← liftFailure (itemsOf session target)
  set { session with cells := session.cells.set address (.list (items ++ [value])) }

/-- Whether an attribute can be read; only its absence is no failure. -/
def hasAttribute (target : Value) (name : Text) : Action Bool :=
  tryCatch (do let _ ← readAttribute callAlone target name; return true) fun fault =>
    match fault with
    | .failed failure => if failure.concernsAttribute then return false else throw fault
    | _ => throw fault

/-- Write an attribute at a place, or the variable itself if no attribute is named. -/
def assignAt (place : Reference) (value : Literal) : Action Unit := do
  match place.path.getLast? with
  | none => do
    let value ← value.make
    setVariable place.holder value
  | some name => do
    let target ← valueAt { place with path := place.path.dropLast }
    let value ← value.make
    writeAttribute callAlone target name value

/-- The callback that only the operations with a callback hand over. -/
def callbackValue : Value :=
  .facility .callback

def targetValue : Target → Action Value
  | .ofClass name => .type <$> classNamed name
  | .value literal => literal.make
  | .function => .function <$> addFunction ⟨"target", [], true, [], [], none⟩

/-- Checked settings, or the faults of those that are given. -/
def checkedSettings : Option SettingValues → Action (Option Settings)
  | none => return none
  | some values =>
    match Settings.check values with
    | .ok settings => return some settings
    | .error faults => throw (.invalid faults)

/-- Apply a capability and describe what came of it.  Applied to nothing at all, it waits. -/
def applyStep (capability : Capability) (target : Target) (called : Bool)
    (values : Option SettingValues) : Action Answer := do
  let settings ← checkedSettings values
  let value ← targetValue target
  if value = .absent && !called then return .waiting
  let result ← applyCapability capability settings value
  match value with
  | .type type => do
    let installation ← installationOf type
    return .applied (result = value) installation.types.names
  | _ => return .applied (result = value) []

/-- Describe a generated type. -/
def summary (session : Session) (name : Text) (value : Value) : TypeSummary :=
  let fields : List RecordField := match value with
    | .type index =>
      (((session.types[index]?).bind (·.fields)).getD []).filter (!·.initOnly)
    | _ => []
  ⟨name, ownerOf session value, fields.map (·.name)⟩

/-- The generated methods that a class has, with their qualified names. -/
def presentMethods (session : Session) (type : Nat) : List (Text × Text) :=
  (Capability.all.flatMap (·.methodNames)).filterMap fun name =>
    let function := match session.attribute? type name with
      | some (.value (.function index)) => session.functions[index]?
      | some (.value (.classMethod index)) => session.functions[index]?
      | _ => none
    function.map fun function => (name, function.qualifiedName)

/-- The names of the module whose values show an owner. -/
def publishedNames (session : Session) : List Text :=
  (session.module.entries.filter fun entry => (ownerOf session entry.2).isSome).map (·.1)

/-- The result of an action, whatever it is. -/
def outcomeOf {α : Type} (action : Action α) : Action (Except Fault α) :=
  tryCatch (Except.ok <$> action) fun fault => return Except.error fault

/-- Take an action as a step: its result, with the notes that were written meanwhile. -/
def settle (action : Action Answer) : Action Reply := do
  let before ← get
  set { before with notes := [] }
  let result ← outcomeOf action
  let after ← get
  set { after with notes := before.notes }
  return .reply result after.notes

def noteValue (value : Value) : Action Unit := do
  let session ← get
  note (.value (shown session value))

/-! ## Taking steps -/

mutual

def takeStep : Step → Action Answer
  | .make holder name arguments => do
    let value ← making (makeObject name arguments)
    keepAndDump holder value
  | .intoCompanion holder record => do
    let value ← callMethod callAlone record "into_destruct" []
    keepAndDump holder value
  | .fromCompanion holder name companion => do
    let type ← classNamed name
    let function ← readType type "from_destruct"
    let companion ← variableValue companion
    let value ← callAlone function [companion] []
    keepAndDump holder value
  | .makeCompanion holder source positional named => do
    let value ← making (makeCompanionObject source positional named)
    keepAndDump holder value
  | .view holder record => do
    let value ← callMethod callAlone record "as_destruct" []
    keepAndDump holder value
  | .reconstruct holder record edits => do
    let object ← variableValue record
    let callback := fun argument => do
      takeEdits object argument edits
      return Value.absent
    let value ← callMethod (callWith callback) record "reconstruct" [callbackValue]
    setVariable holder value
    let dump ← dump value
    return .reconstructed dump (value = object)
  | .substitute record edits => do
    let object ← variableValue record
    let callback := fun argument => do
      takeEdits object argument edits
      return Value.absent
    let returned ← callMethod (callWith callback) record "substitute" [callbackValue]
    let dump ← dump object
    let session ← get
    return .substituted dump (shown session returned)
  | .dump holder => do
    let value ← variableValue holder
    .dump <$> dump value
  | .write holder => do
    let value ← variableValue holder
    let session ← get
    .words <$> liftFailure (written session value)
  | .read place => do
    let value ← valueAt place
    let session ← get
    return .shown (shown session value)
  | .has place => do
    let target ← valueAt { place with path := place.path.dropLast }
    .flag <$> hasAttribute target (place.path.getLastD [])
  | .assign place value => do
    assignAt place value
    let target ← variableValue place.holder
    .dump <$> dump target
  | .append place value => do
    let target ← valueAt place
    appendTo target value
    let session ← get
    return .shown (shown session target)
  | .equal left right => do
    let left ← valueAt left
    let right ← valueAt right
    let session ← get
    .flag <$> liftFailure (equal session left right)
  | .same left right => do
    let left ← valueAt left
    let right ← valueAt right
    return .flag (left = right)
  | .apply capability target called settings => applyStep capability target called settings
  | .types name => do
    let type ← classNamed name
    let installation ← installationOf type
    let session ← get
    return .types <| installation.types.entries.map fun (name, value) =>
      summary session name value
  | .companion name => do
    let type ← classNamed name
    let value ← companionOf type
    let session ← get
    return .words ((ownName? session value).getD [])
  | .model name => do
    let type ← classNamed name
    let installation ← installationOf type
    return .model installation.model
  | .source target => do
    match ← targetValue target with
    | .type type => do
      let (code, location) ← classSource type
      return .source code location
    | value => do
      let session ← get
      fail (.notAClass (session.typeName value))
  | .methods name => do
    let type ← classNamed name
    let session ← get
    return .methods (presentMethods session type)
  | .published => do
    let session ← get
    return .names (publishedNames session)

/-- Do one thing with the argument of a callback, which was made for an object. -/
def takeEdit (object argument : Value) : Edit → Action Unit
  | .assign name value => do
    let value ← value.make
    writeAttribute callAlone argument name value
  | .read name => do
    let value ← readAttribute callAlone argument name
    noteValue value
  | .append name value => do
    let target ← readAttribute callAlone argument name
    appendTo target value
  | .swap first second => do
    let left ← readAttribute callAlone argument first
    let right ← readAttribute callAlone argument second
    writeAttribute callAlone argument first right
    writeAttribute callAlone argument second left
  | .readRecord name => do
    let value ← readAttribute callAlone object name
    noteValue value
  | .noteType => do
    let session ← get
    note (.value (.text (session.typeName argument)))
  | .keep holder => setVariable holder argument
  | .raise words => fail (.raised .runtime words)
  | .step step => do
    let reply ← settle (takeStep step)
    note (.step reply)

/-- Do several things with the argument of a callback, which was made for an object. -/
def takeEdits (object argument : Value) : List Edit → Action Unit
  | [] => return ()
  | first :: later => do
    takeEdit object argument first
    takeEdits object argument later

end

def takeSteps : List Step → Action (List Reply)
  | [] => return []
  | first :: later => do
    let reply ← settle (takeStep first)
    let replies ← takeSteps later
    return reply :: replies

end Live
end OpenRecord
