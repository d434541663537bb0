import OpenRecord.Decimal
import OpenRecord.Diagnostic
import OpenRecord.Settings
import OpenRecord.Text.Quoted

namespace OpenRecord
namespace Live

/-!
# Values and failures of a session

A session runs generated definitions on live classes.  Numbers, texts and truth values are what
they say and have no identity besides; lists, mappings and instances live in numbered *cells*, and
classes and functions are known by their numbers.  A failure is described by its cause, from which
its kind and its words follow.
-/

/-- The kinds of failures that code can meet. -/
inductive ErrorKind
  | attribute
  | reference
  | runtime
  | type
  | name
  | unboundLocal
  | key
  | value
  | frozenField
  | recursion
deriving DecidableEq

/-- The name of a kind, by which code refers to it. -/
def ErrorKind.label : ErrorKind → Text
  | .attribute => "AttributeError"
  | .reference => "ReferenceError"
  | .runtime => "RuntimeError"
  | .type => "TypeError"
  | .name => "NameError"
  | .unboundLocal => "UnboundLocalError"
  | .key => "KeyError"
  | .value => "ValueError"
  | .frozenField => "FrozenInstanceError"
  | .recursion => "RecursionError"

/-- The kinds that are bound to their names everywhere. -/
def ErrorKind.builtin : List ErrorKind :=
  [.attribute, .reference, .runtime, .type, .name, .unboundLocal, .key, .value, .recursion]

/-- What can be wrong with the arguments of a call. -/
inductive ArgumentProblem
  | unexpected (name : Text)
  | repeated (name : Text)
  | surplus (taken given : Nat)
  | missing (names : List Text)
  | missingByName (names : List Text)
  | noneTaken
deriving DecidableEq

inductive Failure
  | noAttribute (type : Text) (name : Text)
  | noTypeAttribute (type : Text) (name : Text)
  | noModuleAttribute (module : Text) (name : Text)
  | readOnly (type : Text) (name : Text)
  | noSetter (property : Text) (type : Text)
  | frozenField (field : Text)
  /-- The guard of a class that has been replaced by one with slots. -/
  | staleGuard
  | typeWrite
  /-- A failure that code announces itself. -/
  | raised (kind : ErrorKind) (words : Text)
  | notAnError
  | notCallable (type : Text)
  | arguments (function : Text) (problem : ArgumentProblem)
  | notAllocatable (type : Text)
  /-- Arguments that do not suit a class; nothing more is said. -/
  | unsuitable
  | unboundName (name : Text)
  | unboundLocal (name : Text)
  | unknownVariable (name : Text)
  /-- A name that a table lacks. -/
  | noKey (name : Text)
  /-- A class, in its written form, without any capability. -/
  | notDecorated (type : Text)
  /-- A class, in its written form, without a companion. -/
  | noCompanion (type : Text)
  /-- A value of some type where a class is expected. -/
  | notAClass (type : Text)
  | expansionFailed (reports : List Text)
  | slotWithDefault (field : Text)
  | slotsTwice (type : Text)
  /-- Slots in a class whose base class has objects of varying size. -/
  | slotsRefused (base : Text)
  | mutableDefault (type : Text) (field : Text)
  | missingDefault (field : Text)
  | guardTaken (type : Text)
  | frozenBase
  | unfrozenBase
  | tooDeep
deriving DecidableEq

/-- A list of names in single quotation marks, in words. -/
def nameList (names : List Text) : Text :=
  match names.map Cause.quotedName with
  | [] => []
  | [only] => only
  | [first, second] => first ++ " and " ++ second
  | many => Text.join ", " many.dropLast ++ ", and " ++ many.getLastD []

/-- A count and a noun, in the plural if there is not exactly one. -/
def counted (count : Nat) (noun : Text) : Text :=
  Text.decimal count ++ ' ' :: noun ++ if count = 1 then [] else ['s']

def ArgumentProblem.message : ArgumentProblem → Text
  | .unexpected name => "got an unexpected keyword argument " ++ Cause.quotedName name
  | .repeated name => "got multiple values for argument " ++ Cause.quotedName name
  | .surplus taken given =>
    "takes " ++ counted taken "positional argument" ++ " but " ++ Text.decimal given ++
      if given = 1 then " was given" else " were given"
  | .missing names =>
    "missing " ++ counted names.length "required positional argument" ++ ": " ++ nameList names
  | .missingByName names =>
    "missing " ++ counted names.length "required keyword-only argument" ++ ": " ++ nameList names
  | .noneTaken => "takes no arguments"

namespace Failure

def kind : Failure → ErrorKind
  | .noAttribute _ _ => .attribute
  | .noTypeAttribute _ _ => .attribute
  | .noModuleAttribute _ _ => .attribute
  | .readOnly _ _ => .attribute
  | .noSetter _ _ => .attribute
  | .frozenField _ => .frozenField
  | .raised kind _ => kind
  | .unboundName _ => .name
  | .unboundLocal _ => .unboundLocal
  | .unknownVariable _ => .key
  | .noKey _ => .key
  | .expansionFailed _ => .value
  | .slotWithDefault _ => .value
  | .mutableDefault _ _ => .value
  | .tooDeep => .recursion
  | _ => .type

def message : Failure → Text
  | .noAttribute type name =>
    Cause.quotedName type ++ " object has no attribute " ++ Cause.quotedName name
  | .noTypeAttribute type name =>
    "type object " ++ Cause.quotedName type ++ " has no attribute " ++ Cause.quotedName name
  | .noModuleAttribute module name =>
    "module " ++ Cause.quotedName module ++ " has no attribute " ++ Cause.quotedName name
  | .readOnly type name =>
    Cause.quotedName type ++ " object attribute " ++ Cause.quotedName name ++ " is read-only"
  | .noSetter property type =>
    "property " ++ Cause.quotedName property ++ " of " ++ Cause.quotedName type ++
      " object has no setter"
  | .frozenField field => "cannot assign to field " ++ Text.quoted field
  | .staleGuard => "super(type, obj): obj must be an instance or subtype of type"
  | .typeWrite => "can't apply this __setattr__ to type object"
  | .raised _ words => words
  | .notAnError => "exceptions must derive from BaseException"
  | .notCallable type => Cause.quotedName type ++ " object is not callable"
  | .arguments function problem => function ++ "() " ++ problem.message
  | .notAllocatable type =>
    "object.__new__(" ++ type ++ ") is not safe, use " ++ type ++ ".__new__()"
  | .unboundName name => "name " ++ Cause.quotedName name ++ " is not defined"
  | .unboundLocal name =>
    "cannot access local variable " ++ Cause.quotedName name ++
      " where it is not associated with a value"
  | .unknownVariable name => Text.quoted name
  | .noKey name => Text.quoted name
  | .notDecorated type => type ++ " is not decorated with a destructure capability"
  | .noCompanion type => type ++ " is not decorated with @destructure"
  | .notAClass type => "Expected a class, got <class " ++ Cause.quotedName type ++ ">"
  | .expansionFailed reports => "Expansion failed:\n" ++ Text.join ['\n'] reports
  | .slotWithDefault field =>
    Cause.quotedName field ++ " in __slots__ conflicts with class variable"
  | .slotsTwice type => type ++ " already specifies __slots__"
  | .slotsRefused base =>
    "nonempty __slots__ not supported for subtype of " ++ Cause.quotedName base
  | .mutableDefault type field =>
    "mutable default <class " ++ Cause.quotedName type ++ "> for field " ++ field ++
      " is not allowed: use default_factory"
  | .missingDefault field =>
    "non-default argument " ++ Cause.quotedName field ++ " follows default argument"
  | .guardTaken type => "Cannot overwrite attribute __setattr__ in class " ++ type
  | .frozenBase => "cannot inherit non-frozen dataclass from a frozen one"
  | .unfrozenBase => "cannot inherit frozen dataclass from a non-frozen one"
  | .unsuitable => []
  | .tooDeep => "maximum recursion depth exceeded"

/-- Whether a failure says that there is no such attribute. -/
def concernsAttribute (failure : Failure) : Bool :=
  failure.kind = .attribute || failure.kind = .frozenField

end Failure

/-- What can end a step. -/
inductive Fault
  | refused (diagnostic : Diagnostic)
  | invalid (faults : List SettingFault)
  /-- A text that is no source. -/
  | unreadable
  | failed (failure : Failure)
deriving DecidableEq

/-! ## Values -/

inductive Facility
  /-- The type at the root of all types. -/
  | rootType
  /-- Makes an instance without initialising it. -/
  | allocate
  /-- Writes an attribute past the guards of a class. -/
  | rawWrite
  | copyModule
  | shallowCopy
  | dataclassesModule
  /-- Derives the special methods of a class from its fields. -/
  | derive
  | fieldMaker
  | fieldMark
  | typingModule
  | propertyMaker
  | classMethodMaker
  | errorType (kind : ErrorKind)
  /-- The function that the caller of an operation hands to it. -/
  | callback
  /-- Any other value of a type. -/
  | other (type : Text)
deriving DecidableEq

inductive Value
  | absent
  | boolean (value : Bool)
  | whole (value : Int)
  | decimal (value : Decimal)
  | text (chars : Text)
  | cell (address : Nat)
  | type (index : Nat)
  | function (index : Nat)
  | classMethod (index : Nat)
  /-- A function with its first argument. -/
  | bound (index : Nat) (receiver : Value)
  | facility (facility : Facility)
  | error (kind : ErrorKind) (words : Text)
deriving DecidableEq

inductive Cell
  | list (items : List Value)
  | mapping (members : List (Text × Value))
  | object (type : Nat) (attributes : List (Text × Value))
deriving DecidableEq

def Facility.typeName : Facility → Text
  | .rootType => "type"
  | .allocate => "builtin_function_or_method"
  | .rawWrite => "wrapper_descriptor"
  | .copyModule => "module"
  | .shallowCopy => "function"
  | .dataclassesModule => "module"
  | .derive => "function"
  | .fieldMaker => "function"
  | .fieldMark => "Field"
  | .typingModule => "module"
  | .propertyMaker => "type"
  | .classMethodMaker => "type"
  | .errorType _ => "type"
  | .callback => "function"
  | .other type => type

end Live
end OpenRecord
