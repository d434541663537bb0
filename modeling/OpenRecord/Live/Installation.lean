import OpenRecord.Generation.Collection
import OpenRecord.Live.Definition
import OpenRecord.Record.Extraction
import OpenRecord.Source.Retrieval

namespace OpenRecord
namespace Live

/-!
# Installing capabilities on a live class

Applying a capability to a class reads the class back from its file, generates the artifacts of this
capability and of those that the class requests or has already, and installs the ones that are
still missing.  The settings of the first application hold for all later ones.  Generated types
carry the qualified name of their class, their *owner*; those of a class at the top level of the
module are also published there.
-/

/-! ## What is to be installed -/

/-- What an application of a capability has to install. -/
structure Plan where
  settings : Settings
  model : RecordModel
  pending : List Artifact

/-- The settings of an application: those of the first one on the class, or else the given ones. -/
def effectiveSettings (installed : Option Installation) (given : Option Settings) : Settings :=
  match installed with
  | some installation => installation.settings
  | none => given.getD Settings.default

def installedCapabilities (installed : Option Installation) : Capabilities :=
  match installed with
  | some installation => installation.capabilities
  | none => .empty

/-- An extracted model with the capability that is applied and those that are installed. -/
def requestedModel (installed : Option Installation) (capability : Capability)
    (extracted : RecordModel) : RecordModel :=
  { extracted with
    capabilities :=
      (extracted.capabilities.insert capability).union (installedCapabilities installed) }

def pendingArtifacts (installed : Option Installation) (artifacts : List Artifact) :
    List Artifact :=
  artifacts.filter fun artifact =>
    !(installedCapabilities installed).contains artifact.kind.capability

/-- Decide what an application of a capability has to install. -/
def planInstallation (installed : Option Installation) (capability : Capability)
    (given : Option Settings) (extracted : RecordModel) (scope : Option (List Text)) :
    Except Diagnostic Plan :=
  let settings := effectiveSettings installed given
  let model := requestedModel installed capability extracted
  match generate model settings scope with
  | .error diagnostic => .error diagnostic
  | .ok artifacts => .ok ⟨settings, model, pendingArtifacts installed artifacts⟩

/-! ## Reading the class -/

/-- The refusal of a class that cannot be read back. -/
def unreadableClass (name reason : Text) (filename : Option Text) : Fault :=
  .refused ⟨.sourceUnreadable reason, some name, some ⟨filename, none, none⟩⟩

def classSource (type : Nat) : Action (Text × Location) := do
  let session ← get
  match session.source with
  | none =>
    throw (unreadableClass (session.nameOf type) "source code not available" none)
  | some file =>
    match file.findClass (session.qualifiedNameOf type) with
    | none =>
      throw (unreadableClass (session.nameOf type) "could not find class definition"
        (some moduleFile))
    | some found => return (found.definition, ⟨some moduleFile, some found.firstLine, some 0⟩)

def readModel (type : Nat) : Action RecordModel := do
  let session ← get
  let (code, location) ← classSource type
  match Source.SourceFile.parse? code with
  | none => throw .unreadable
  | some file =>
    match extractFrom file (some (session.nameOf type)) (some location) with
    | .error diagnostic => throw (.refused diagnostic)
    | .ok model => return model

/-! ## Names of the module -/

/-- Whether a class stands at the top level of the module. -/
def isTopLevel (qualifiedName : Text) : Bool :=
  !qualifiedName.contains '.'

/-- The owner that a value shows, its own or that of its class. -/
def ownerOf (session : Session) : Value → Option Text
  | .type index => ofType index
  | .function index => (session.functions[index]?).bind (·.owner)
  | .classMethod index => (session.functions[index]?).bind (·.owner)
  | .cell address =>
    match session.cells[address]? with
    | some (.object type _) => ofType type
    | _ => none
  | _ => none
where
  /-- The owner of a class or of its nearest ancestor that has one. -/
  ofType (index : Nat) : Option Text :=
    (session.lineage index).findSome? fun index => (session.types[index]?).bind (·.owner)

/-- The names of the module that generated types of a class must not take, which are all but those
of its own types; nothing is known for a class inside another definition. -/
def takenNames (session : Session) (qualifiedName : Text) : Option (List Text) :=
  if isTopLevel qualifiedName then
    some <| (session.module.entries.filter fun entry =>
      ownerOf session entry.2 != some qualifiedName).map (·.1)
  else none

/-! ## Installing -/

/-- The names that generated code finds around it: those of the module, the modules that it refers
to, and its class. -/
def surroundingNames (session : Session) (type : Nat) : NameTable Value :=
  session.module.putAll
    [("__name__", .text moduleName), ("copy", .facility .copyModule),
      ("dataclasses", .facility .dataclassesModule), ("typing", .facility .typingModule),
      (session.nameOf type, .type type)]

/-- The installation of a class, which is begun if there is none. -/
def beginInstallation (type : Nat) (installed : Option Installation) (plan : Plan) :
    Action Installation := do
  match installed with
  | some installation => return installation
  | none => do
    let session ← get
    let scope ← addScope (surroundingNames session type)
    let installation : Installation := ⟨plan.settings, plan.model, .empty, .empty, scope⟩
    modifyType type fun live => { live with installed := some installation }
    return installation

def defineArtifacts (scope : Nat) : List Artifact → Action Unit
  | [] => return ()
  | artifact :: later => do
    let value ← define callAlone [scope] [] artifact.definition
    bindName scope artifact.name value
    defineArtifacts scope later

def requalify (value : Value) (qualifiedName : Text) : Action Unit :=
  match value with
  | .function index => renameFunction index
  | .classMethod index => renameFunction index
  | .type index => modifyType index fun live => { live with qualifiedName }
  | _ => return ()
where
  /-- Give a function another qualified name. -/
  renameFunction (index : Nat) : Action Unit :=
    modify fun session =>
      { session with
        functions := session.functions.modify index fun function =>
          { function with qualifiedName } }

def markOwner (value : Value) (owner : Text) : Action Unit :=
  match value with
  | .function index => markFunction index
  | .classMethod index => markFunction index
  | .type index => modifyType index fun live => { live with owner := some owner }
  | _ => return ()
where
  /-- Mark a function with its owner. -/
  markFunction (index : Nat) : Action Unit :=
    modify fun session =>
      { session with
        functions := session.functions.modify index fun function =>
          { function with owner := some owner } }

def installArtifact (type : Nat) (qualifiedName : Text) (scope : Nat) (artifact : Artifact) :
    Action Unit := do
  let session ← get
  match session.nameIn? [scope] artifact.name with
  | none => return ()
  | some value =>
    match artifact.placement with
    | .inClass => do
      requalify value (qualifiedName ++ '.' :: artifact.name)
      modifyType type fun live =>
        { live with attributes := live.attributes.put artifact.name (.value value) }
    | .besideClass => do
      markOwner value qualifiedName
      modifyType type fun live =>
        { live with
          installed := live.installed.map fun installation =>
            { installation with types := installation.types.put artifact.name value } }
      if isTopLevel qualifiedName then bindName moduleScope artifact.name value

def installArtifacts (type : Nat) (qualifiedName : Text) (scope : Nat) :
    List Artifact → Action Unit
  | [] => return ()
  | artifact :: later => do
    installArtifact type qualifiedName scope artifact
    installArtifacts type qualifiedName scope later

/-- Note on a class what has been installed. -/
def finishInstallation (type : Nat) (model : RecordModel) : Action Unit :=
  modifyType type fun live =>
    { live with
      installed := live.installed.map fun installation =>
        { installation with
          model
          capabilities := installation.capabilities.union model.capabilities } }

def install (type : Nat) (installed : Option Installation) (plan : Plan) : Action Unit := do
  let session ← get
  let installation ← beginInstallation type installed plan
  defineArtifacts installation.scope plan.pending
  installArtifacts type (session.qualifiedNameOf type) installation.scope plan.pending
  finishInstallation type plan.model

/-! ## Applying -/

def applyToType (capability : Capability) (given : Option Settings) (type : Nat) :
    Action Unit := do
  let session ← get
  let installed := (session.types[type]?).bind (·.installed)
  if (installedCapabilities installed).contains capability then return ()
  else
    let extracted ← readModel type
    let scope := takenNames session (session.qualifiedNameOf type)
    match planInstallation installed capability given extracted scope with
    | .error diagnostic => throw (.refused diagnostic)
    | .ok plan => install type installed plan

def ownName? (session : Session) : Value → Option Text
  | .type index => some (session.nameOf index)
  | .function index =>
    (session.functions[index]?).map fun function => Text.afterLast '.' function.qualifiedName
  | _ => none

/-- Apply a capability to a value, which has to be a class, and answer the value. -/
def applyCapability (capability : Capability) (given : Option Settings) (target : Value) :
    Action Value := do
  match target with
  | .type type => do
    applyToType capability given type
    return target
  | _ => do
    let session ← get
    throw (.refused ⟨.appliedToValue capability (session.typeName target),
      ownName? session target, none⟩)

/-! ## Asking -/

/-- What is installed on a class; nothing is inherited. -/
def installationOf (type : Nat) : Action Installation := do
  let session ← get
  match (session.types[type]?).bind (·.installed) with
  | some installation => return installation
  | none => fail (.notDecorated (session.written type))

def companionOf (type : Nat) : Action Value := do
  let session ← get
  match (session.types[type]?).bind (·.installed) with
  | none => fail (.noCompanion (session.written type))
  | some installation =>
    if installation.capabilities.contains .destructure then
      let name := companionName (session.nameOf type) installation.settings
      match installation.types.get? name with
      | some value => return value
      | none => fail (.noKey name)
    else fail (.noCompanion (session.written type))

end Live
end OpenRecord
