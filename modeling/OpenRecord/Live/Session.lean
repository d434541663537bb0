import OpenRecord.Live.Answer
import OpenRecord.Live.Type
import OpenRecord.Source.Tree

namespace OpenRecord
namespace Live

/-!
# The state of a session

A session holds everything that code can change: cells, classes, functions, scopes of names, the
variables of the caller and the notes of callbacks.  An action reads and changes the session and
ends with a value or a fault; what it changed before a fault stays changed.
-/

structure Session where
  cells : List Cell
  types : List LiveType
  functions : List LiveFunction
  /-- The scopes by number; the first one is that of the module. -/
  scopes : List (NameTable Value)
  /-- What the variables of the caller hold. -/
  held : NameTable Value
  notes : List Note
  /-- The source file of the module, if it can be read. -/
  source : Option Source.SourceFile

abbrev Action := ExceptT Fault (StateM Session)

def fail {α : Type} (failure : Failure) : Action α :=
  throw (.failed failure)

/-- The name of the module that the classes of a session are defined in. -/
def moduleName : Text := "models"

def moduleFile : Text := "models.py"

def moduleScope : Nat := 0

namespace Session

def empty : Session :=
  ⟨[], [], [], [.empty], .empty, [], none⟩

/-! ## Classes -/

def lineage (session : Session) (type : Nat) : List Nat :=
  match session.types[type]? with
  | some live => type :: live.ancestors
  | none => [type]

/-- An attribute of a class, its own or the nearest inherited one. -/
def attribute? (session : Session) (type : Nat) (name : Text) : Option Attribute :=
  (session.lineage type).findSome? fun index =>
    (session.types[index]?).bind (·.attributes.get? name)

/-- Whether the objects of a class may have attributes of any name: some class in its line does not
list them. -/
def isOpen (session : Session) (type : Nat) : Bool :=
  (session.lineage type).any fun index =>
    match session.types[index]? with
    | some live => live.slots.isNone
    | none => false

def nameOf (session : Session) (type : Nat) : Text :=
  match session.types[type]? with
  | some live => live.name
  | none => []

def qualifiedNameOf (session : Session) (type : Nat) : Text :=
  match session.types[type]? with
  | some live => live.qualifiedName
  | none => []

def written (session : Session) (type : Nat) : Text :=
  "<class '" ++ moduleName ++ '.' :: session.qualifiedNameOf type ++ "'>"

def typeName (session : Session) : Value → Text
  | .absent => "NoneType"
  | .boolean _ => "bool"
  | .whole _ => "int"
  | .decimal _ => "float"
  | .text _ => "str"
  | .cell address =>
    match session.cells[address]? with
    | some (.list _) => "list"
    | some (.mapping _) => "dict"
    | some (.object type _) => session.nameOf type
    | none => []
  | .type _ => "type"
  | .function _ => "function"
  | .classMethod _ => "classmethod"
  | .bound _ _ => "method"
  | .facility facility => facility.typeName
  | .error kind _ => kind.label

/-! ## Cells -/

def ownAttributes (session : Session) (address : Nat) : List (Text × Value) :=
  match session.cells[address]? with
  | some (.object _ attributes) => attributes
  | _ => []

def own? (session : Session) (address : Nat) (name : Text) : Option Value :=
  lookupName name (session.ownAttributes address)

/-- The session with a new cell, whose address is the number of cells before. -/
def withCell (session : Session) (cell : Cell) : Session :=
  { session with cells := session.cells ++ [cell] }

/-- The session with an attribute of an object written. -/
def withAttribute (session : Session) (address : Nat) (name : Text) (value : Value) : Session :=
  match session.cells[address]? with
  | some (.object type attributes) =>
    { session with
      cells := session.cells.set address (.object type (putName name value attributes)) }
  | _ => session

/-! ## Scopes -/

/-- A name in one of several scopes, the first of them that has it. -/
def nameIn? (session : Session) (scopes : List Nat) (name : Text) : Option Value :=
  scopes.findSome? fun index => (session.scopes[index]?).bind (·.get? name)

def withName (session : Session) (scope : Nat) (name : Text) (value : Value) : Session :=
  match session.scopes[scope]? with
  | some table => { session with scopes := session.scopes.set scope (table.put name value) }
  | none => session

def module (session : Session) : NameTable Value :=
  (session.scopes[moduleScope]?).getD .empty

/-! ## Small laws -/

@[simp] theorem cells_withCell_new (session : Session) (cell : Cell) :
    (session.withCell cell).cells[session.cells.length]? = some cell := by
  simp [withCell]

/-- A new cell leaves the old ones as they are. -/
theorem cells_withCell_old (session : Session) (cell : Cell) {address : Nat}
    (h : address < session.cells.length) :
    (session.withCell cell).cells[address]? = session.cells[address]? := by
  simp [withCell, List.getElem?_append_left h]

/-- Writing to one object leaves all other cells as they are. -/
theorem cells_withAttribute_other (session : Session) {address other : Nat} (name : Text)
    (value : Value) (h : other ≠ address) :
    (session.withAttribute address name value).cells[other]? = session.cells[other]? := by
  unfold withAttribute
  split
  · simp [List.getElem?_set_ne h.symm]
  · rfl

/-- Writing to an object changes one entry of its attributes. -/
theorem cells_withAttribute_same (session : Session) {address type : Nat}
    {attributes : List (Text × Value)} (name : Text) (value : Value)
    (h : session.cells[address]? = some (.object type attributes)) :
    (session.withAttribute address name value).cells[address]? =
      some (.object type (putName name value attributes)) := by
  have hlt : address < session.cells.length := by
    rw [List.getElem?_eq_some_iff] at h
    exact h.1
  simp only [withAttribute, h]
  simp [hlt]

theorem own?_withAttribute_same (session : Session) {address type : Nat}
    {attributes : List (Text × Value)} (name : Text) (value : Value)
    (h : session.cells[address]? = some (.object type attributes)) :
    (session.withAttribute address name value).own? address name = some value := by
  simp only [own?, ownAttributes, session.cells_withAttribute_same name value h]
  exact NameTable.get?_put_same ⟨attributes⟩ name value

theorem own?_withAttribute_other (session : Session) {address type : Nat}
    {attributes : List (Text × Value)} {name other : Text} (value : Value)
    (h : session.cells[address]? = some (.object type attributes)) (distinct : other ≠ name) :
    (session.withAttribute address name value).own? address other =
      session.own? address other := by
  simp only [own?, ownAttributes, session.cells_withAttribute_same name value h, h]
  exact NameTable.get?_put_other ⟨attributes⟩ value distinct

end Session

/-! ## Actions -/

/-- Make a cell and answer its address. -/
def allocate (cell : Cell) : Action Value := do
  let session ← get
  set (session.withCell cell)
  return .cell session.cells.length

/-- Add a class and answer its number. -/
def addType (live : LiveType) : Action Nat := do
  let session ← get
  set { session with types := session.types ++ [live] }
  return session.types.length

def modifyType (type : Nat) (change : LiveType → LiveType) : Action Unit :=
  modify fun session => { session with types := session.types.modify type change }

/-- Add a function and answer its number. -/
def addFunction (function : LiveFunction) : Action Nat := do
  let session ← get
  set { session with functions := session.functions ++ [function] }
  return session.functions.length

/-- Add a scope and answer its number. -/
def addScope (table : NameTable Value) : Action Nat := do
  let session ← get
  set { session with scopes := session.scopes ++ [table] }
  return session.scopes.length

def bindName (scope : Nat) (name : Text) (value : Value) : Action Unit :=
  modify (·.withName scope name value)

def note (entry : Note) : Action Unit :=
  modify fun session => { session with notes := session.notes ++ [entry] }

end Live
end OpenRecord
