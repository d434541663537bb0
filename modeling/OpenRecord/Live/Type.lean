import OpenRecord.Code.Term
import OpenRecord.Generation.Artifact
import OpenRecord.Live.Value
import OpenRecord.NameTable

namespace OpenRecord
namespace Live

/-!
# Live classes and functions

A live class is a table of attributes with a line of ancestors, in which an attribute that the class
lacks is looked up.  Special methods that are derived from the fields of a class are attributes of
their own kinds, so that they are inherited like all others.
-/

/-- A field from which special methods are derived. -/
structure RecordField where
  name : Text
  default : Option Value
  /-- It is an argument of the initialiser and not kept. -/
  initOnly : Bool
  keywordOnly : Bool
  /-- It is no argument of the initialiser and takes no part in comparison and display. -/
  hidden : Bool
deriving DecidableEq

inductive Attribute
  | value (value : Value)
  | property (getter : Nat) (setter : Option Nat)
  /-- The place of an attribute in the objects of the class. -/
  | slot
  /-- Takes the fields as arguments and writes them, past the guards of the class or not. -/
  | initializer (fields : List RecordField) (raw : Bool)
  | comparison (names : List Text)
  | display (names : List Text)
  /-- Refuses to write fields, and in objects of this very class all attributes.  It is stale if the
  class has been replaced since. -/
  | guard (names : List Text) (stale : Bool)
  /-- Copies the fields of an object one by one. -/
  | transfer (names : List Text)
deriving DecidableEq

/-- What has been installed on a class. -/
structure Installation where
  settings : Settings
  model : RecordModel
  capabilities : Capabilities
  /-- The generated types by name. -/
  types : NameTable Value
  /-- The number of the scope in which the generated code is defined. -/
  scope : Nat

structure LiveType where
  name : Text
  qualifiedName : Text
  /-- The numbers of the ancestors, the nearest one first. -/
  ancestors : List Nat
  /-- A base class from outside whose objects cannot be made without initialising them. -/
  foreignBase : Option Text
  attributes : NameTable Attribute
  /-- The names of the attributes that objects have, unless they may have any. -/
  slots : Option (List Text)
  /-- The fields, if special methods have been derived from them. -/
  fields : Option (List RecordField)
  frozen : Bool
  /-- The qualified name of the class that the type was generated for. -/
  owner : Option Text
  installed : Option Installation

structure LiveFunction where
  qualifiedName : Text
  parameters : List Text
  /-- Whether any further arguments are taken. -/
  variadic : Bool
  body : List Code.Command
  /-- The numbers of the scopes around it, the innermost one first. -/
  scopes : List Nat
  owner : Option Text

end Live
end OpenRecord
