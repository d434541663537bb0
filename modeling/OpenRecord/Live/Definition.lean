import OpenRecord.Live.Call
import OpenRecord.Live.Derivation

namespace OpenRecord
namespace Live

/-!
# Defining emitted code

Emitted classes and methods become live ones.  Decorators are looked up by their names like
everything else, first in the body of the class, so that a name that hides one of them makes the
definition fail or mean something else.
-/

open Code

/-- A name in the body of a class that is being built. -/
def resolveInBody (attributes : NameTable Attribute) (scopes : List Nat) (name : Text) :
    Action Value :=
  match attributes.get? name with
  | some (.value value) => return value
  | some (.property _ _) => return .facility (.other "property")
  | some _ => return .facility (.other "function")
  | none => resolveOutside scopes name

def functionOf (scopes : List Nat) (qualifiedName : Text) (method : Method) : LiveFunction :=
  { qualifiedName
    parameters := method.parameters.map (·.name)
    variadic := false
    body := method.body
    scopes
    owner := none }

/-- The attribute that a method becomes in a body with some attributes. -/
def methodAttribute (call : Caller) (attributes : NameTable Attribute) (scopes : List Nat)
    (qualifiedName : Text) (method : Method) : Action Attribute := do
  let define := addFunction (functionOf scopes qualifiedName method)
  match method.role with
  | .plain => do
    let function ← define
    return .value (.function function)
  | .ofClass => do
    let decorator ← resolveInBody attributes scopes "classmethod"
    let function ← define
    if decorator = .facility .classMethodMaker then return .value (.classMethod function)
    let value ← call decorator [.function function] []
    return .value value
  | .getter => do
    let decorator ← resolveInBody attributes scopes "property"
    let function ← define
    if decorator = .facility .propertyMaker then return .property function none
    let value ← call decorator [.function function] []
    return .value value
  | .setter => do
    match attributes.get? method.name with
    | some (.property getter _) => do
      let function ← define
      return .property getter (some function)
    | _ => do
      let value ← resolveInBody attributes scopes method.name
      let decorator ← readAttribute call value "setter"
      let function ← define
      let value ← call decorator [.function function] []
      return .value value

/-- The body of a class as far as it has been run. -/
structure Body where
  attributes : NameTable Attribute
  fields : List RecordField
  slots : Option (List Text)

/-- Run the parts of the body of an emitted class. -/
def runMembers (call : Caller) (scopes : List Nat) (qualifiedName : Text) :
    Body → List Member → Action Body
  | body, [] => return body
  | body, .slots names :: later =>
    runMembers call scopes qualifiedName
      { body with
        attributes := body.attributes.putAll (names.map fun name => (name, .slot))
        slots := some names }
      later
  | body, .field name _ hidden :: later => do
    let attributes ←
      if hidden then do
        let module ← resolveInBody body.attributes scopes "dataclasses"
        let maker ← readAttribute call module "field"
        let mark ← call maker [] []
        pure (body.attributes.put name (.value mark))
      else pure body.attributes
    runMembers call scopes qualifiedName
      { body with
        attributes
        fields := body.fields ++ [⟨name, none, false, false, hidden⟩] }
      later
  | body, .method method :: later => do
    let found ←
      methodAttribute call body.attributes scopes (qualifiedName ++ '.' :: method.name) method
    runMembers call scopes qualifiedName
      { body with attributes := body.attributes.put method.name found } later

/-- A class with the attributes of a body and nothing else. -/
def plainType (name qualifiedName : Text) (ancestors : List Nat) (foreignBase : Option Text)
    (body : Body) : LiveType :=
  { name
    qualifiedName
    ancestors
    foreignBase
    attributes := body.attributes
    slots := body.slots
    fields := none
    frozen := false
    owner := none
    installed := none }

/-- Derive methods for a class that is being built. -/
def derived (style : DerivationStyle) (fields : List RecordField) (live : LiveType) :
    Action LiveType := do
  let session ← get
  match deriveMethods session style fields live with
  | .ok live => return live
  | .error failure => fail failure

/-- The term by which emitted classes ask for derived methods. -/
def derivationTerm : Term :=
  .attribute (.name "dataclasses") "dataclass"

def defineType (call : Caller) (scopes : List Nat) (qualifiedName : Text) (code : ClassCode) :
    Action Value := do
  let decorator ←
    if code.derived then some <$> evaluate call ⟨scopes, [], .empty⟩ derivationTerm
    else pure none
  let body ← runMembers call scopes qualifiedName ⟨.empty, [], none⟩ code.members
  let live := plainType code.name qualifiedName [] none body
  match decorator with
  | none => .type <$> addType live
  | some (.facility .derive) => do
    let live ← derived ⟨false, false⟩ body.fields live
    .type <$> addType live
  | some decorator => do
    let type ← addType live
    call decorator [.type type] []

/-- Define an emitted class or method on its own, with a text in front of its qualified name. -/
def define (call : Caller) (scopes : List Nat) (front : Text) : Definition → Action Value
  | .type code => defineType call scopes (front ++ code.name) code
  | .method method => do
    match ← methodAttribute call .empty scopes (front ++ method.name) method with
    | .value value => return value
    | _ => return .facility (.other "property")

end Live
end OpenRecord
