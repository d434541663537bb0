import OpenRecord.Live.Session

namespace OpenRecord
namespace Live

/-!
# Access to attributes

Reading an attribute may run a property, and writing one may run a property or a guard.  Both are
therefore given the way in which values are called.  A *raw* write obeys properties and slots, and
no guard.
-/

/-- A way to call a value with arguments by position and by name. -/
abbrev Caller := Value → List Value → List (Text × Value) → Action Value

/-- A value of a class as it is read through an object of the class. -/
def boundTo (receiver : Value) (type : Nat) : Value → Value
  | .function index => .bound index receiver
  | .classMethod index => .bound index (.type type)
  | value => value

/-! ## Reading -/

def readObject (call : Caller) (address type : Nat) (name : Text) : Action Value := do
  let session ← get
  match session.attribute? type name, session.own? address name with
  | some (.property getter _), _ => call (.function getter) [.cell address] []
  | _, some value => return value
  | some (.value value), none => return boundTo (.cell address) type value
  | _, none => fail (.noAttribute (session.nameOf type) name)

/-- An attribute of a class, read from the class itself. -/
def readType (type : Nat) (name : Text) : Action Value := do
  let session ← get
  match session.attribute? type name with
  | some (.value (.classMethod index)) => return .bound index (.type type)
  | some (.value value) => return value
  | some (.property _ _) => return .facility (.other "property")
  | some .slot => return .facility (.other "member_descriptor")
  | some _ => return .facility (.other "function")
  | none => fail (.noTypeAttribute (session.nameOf type) name)

def facilityAttribute? (facility : Facility) (name : Text) : Option Facility :=
  match facility with
  | .rootType =>
    if name == "__new__" then some .allocate
    else if name == "__setattr__" then some .rawWrite
    else none
  | .copyModule => if name == "copy" then some .shallowCopy else none
  | .dataclassesModule =>
    if name == "dataclass" then some .derive
    else if name == "field" then some .fieldMaker
    else none
  | _ => none

def Facility.moduleName? : Facility → Option Text
  | .copyModule => some "copy"
  | .dataclassesModule => some "dataclasses"
  | .typingModule => some "typing"
  | _ => none

def readFacility (facility : Facility) (name : Text) : Action Value :=
  match facilityAttribute? facility name, facility.moduleName? with
  | some found, _ => return .facility found
  | none, some module => fail (.noModuleAttribute module name)
  | none, none => fail (.noAttribute facility.typeName name)

def readAttribute (call : Caller) (target : Value) (name : Text) : Action Value := do
  let session ← get
  match target with
  | .cell address =>
    match session.cells[address]? with
    | some (.object type _) => readObject call address type name
    | _ => fail (.noAttribute (session.typeName target) name)
  | .type type => readType type name
  | .facility facility => readFacility facility name
  | _ => fail (.noAttribute (session.typeName target) name)

def callOn (call : Caller) (target : Value) (method : Text) (arguments : List Value) :
    Action Value := do
  let function ← readAttribute call target method
  call function arguments []

/-! ## Writing -/

/-- Write an attribute of an object past the guards of its class. -/
def rawWriteObject (call : Caller) (address type : Nat) (name : Text) (value : Value) :
    Action Unit := do
  let session ← get
  match session.attribute? type name with
  | some (.property _ (some setter)) =>
    let _ ← call (.function setter) [.cell address, value] []
    return ()
  | some (.property _ none) => fail (.noSetter name (session.qualifiedNameOf type))
  | some .slot => set (session.withAttribute address name value)
  | found =>
    if session.isOpen type then set (session.withAttribute address name value)
    else if found.isSome then fail (.readOnly (session.nameOf type) name)
    else fail (.noAttribute (session.nameOf type) name)

/-- Write an attribute of a value past all guards. -/
def rawWrite (call : Caller) (target : Value) (name : Text) (value : Value) : Action Unit := do
  let session ← get
  match target with
  | .cell address =>
    match session.cells[address]? with
    | some (.object type _) => rawWriteObject call address type name value
    | _ => fail (.noAttribute (session.typeName target) name)
  | .type _ => fail .typeWrite
  | _ => fail (.noAttribute (session.typeName target) name)

/-- The name of the attribute that guards writes. -/
def guardName : Text := "__setattr__"

/-- Write an attribute of an object through the guards that some of its classes have. -/
def guardedWrite (call : Caller) (address type : Nat) (name : Text) (value : Value) :
    List Nat → Action Unit
  | [] => rawWriteObject call address type name value
  | index :: later => do
    let session ← get
    match (session.types[index]?).bind (·.attributes.get? guardName) with
    | some (.guard names stale) =>
      if (!stale && index == type) || names.contains name then fail (.frozenField name)
      else if stale then fail .staleGuard
      else guardedWrite call address type name value later
    | some (.value guard) => do
      let _ ← call (boundTo (.cell address) type guard) [.text name, value] []
      return ()
    | _ => guardedWrite call address type name value later

def writeAttribute (call : Caller) (target : Value) (name : Text) (value : Value) :
    Action Unit := do
  let session ← get
  match target with
  | .cell address =>
    match session.cells[address]? with
    | some (.object type _) =>
      guardedWrite call address type name value (session.lineage type)
    | _ => fail (.noAttribute (session.typeName target) name)
  | .type type =>
    modifyType type fun live => { live with attributes := live.attributes.put name (.value value) }
  | _ => fail (.noAttribute (session.typeName target) name)

end Live
end OpenRecord
