import OpenRecord.Code.Lines
import OpenRecord.Live.Derivation
import OpenRecord.Live.Literal

namespace OpenRecord
namespace Live

/-!
# Declarations of live classes

The classes of a session are declared part by part and written as the text of a module, from which
they are read back.  The text starts with four lines of imports; a class may stand at the top level,
in a function that returns it, or in another class.
-/

inductive Nesting
  | topLevel
  | inFunction
  | inClass
deriving DecidableEq

structure FieldDeclaration where
  name : Text
  type : Text
  default : Option Literal

/-- What a class has besides its fields. -/
inductive Extra
  /-- An initialiser that always fails. -/
  | failingInitializer
  /-- A guard that refuses every write. -/
  | refusingGuard
  /-- Slots for all fields. -/
  | fieldSlots
  /-- A method that does nothing. -/
  | idleMethod (name : Text)

structure ClassDeclaration where
  name : Text
  /-- The text of the base class. -/
  base : Option Text
  /-- The texts of the decorators, the outermost one first. -/
  decorators : List Text
  /-- Whether and how special methods are derived from the fields. -/
  derivation : Option DerivationStyle
  fields : List FieldDeclaration
  extras : List Extra
  nesting : Nesting

/-- A declared module: lines of code, and then classes. -/
structure ModuleDeclaration where
  globals : List Text
  classes : List ClassDeclaration

/-! ## Texts -/

/-- The lines that every module starts with. -/
def preludeLines : List Text :=
  ["from dataclasses import KW_ONLY, InitVar, dataclass",
    "from typing import Annotated, Any, ClassVar, Generic, List, Optional, TypeVar",
    "from destructure import GeneratorConfig, Skip, destructure, destructure_ref, mutation",
    "T = TypeVar('T')"]

/-- The arguments of the decorator that derives methods. -/
def DerivationStyle.arguments (style : DerivationStyle) : List Text :=
  (if style.frozen then [("frozen=True" : Text)] else []) ++
    if style.slotted then [("slots=True" : Text)] else []

/-- The decorator that derives methods. -/
def DerivationStyle.line (style : DerivationStyle) : Text :=
  "@dataclass" ++
    match style.arguments with
    | [] => []
    | arguments => '(' :: Text.join ", " arguments ++ [')']

def FieldDeclaration.line (field : FieldDeclaration) : Text :=
  field.name ++ ": " ++ field.type ++
    match field.default with
    | none => []
    | some value => " = " ++ value.written

/-- The words of the initialiser that always fails. -/
def initializerRefusal : Text := "initializer"

/-- The words of the guard that refuses every write. -/
def guardRefusal : Text := "guarded"

/-- The lines of an extra of a class with some fields. -/
def Extra.lines (fields : List FieldDeclaration) : Extra → List Text
  | .failingInitializer =>
    ["def __init__(self, *args, **kwargs):",
      Code.indentUnit ++ "raise RuntimeError(" ++
        (Code.Term.string initializerRefusal).line ++ ")"]
  | .refusingGuard =>
    ["def __setattr__(self, name, value):",
      Code.indentUnit ++ "raise AttributeError(" ++ (Code.Term.string guardRefusal).line ++ ")"]
  | .fieldSlots =>
    ["__slots__ = (" ++
      fields.flatMap (fun field => (Code.Term.string field.name).line ++ [',', ' ']) ++ ")"]
  | .idleMethod name => ["def " ++ name ++ "(self):", Code.indentUnit ++ "return None"]

namespace ClassDeclaration

def bodyLines (declaration : ClassDeclaration) : List Text :=
  match declaration.fields.map (·.line) ++
    declaration.extras.flatMap (·.lines declaration.fields) with
  | [] => ["pass"]
  | lines => lines

def classLines (declaration : ClassDeclaration) : List Text :=
  declaration.decorators.map (fun decorator => '@' :: decorator) ++
    (declaration.derivation.map (·.line)).toList ++
    ("class " ++ declaration.name ++
      (match declaration.base with
        | none => []
        | some base => '(' :: base ++ [')']) ++ [':']) ::
    Code.indent declaration.bodyLines 1

def functionName (declaration : ClassDeclaration) : Text :=
  "make_" ++ declaration.name

def outerName (declaration : ClassDeclaration) : Text :=
  "Outer" ++ declaration.name

/-- The lines of a class with what stands around it. -/
def lines (declaration : ClassDeclaration) : List Text :=
  match declaration.nesting with
  | .topLevel => declaration.classLines
  | .inFunction =>
    ("def " ++ declaration.functionName ++ "():") ::
      Code.indent (declaration.classLines ++ ["return " ++ declaration.name]) 1 ++
      ([[], [], declaration.name ++ " = " ++ declaration.functionName ++ "()"] : List Text)
  | .inClass =>
    ("class " ++ declaration.outerName ++ [':']) ::
      Code.indent declaration.classLines 1 ++
      ([[], [], declaration.name ++ " = " ++ declaration.outerName ++ '.' :: declaration.name] :
        List Text)

/-- The text in front of the names of types beside the class. -/
def front (declaration : ClassDeclaration) : Text :=
  match declaration.nesting with
  | .topLevel => []
  | .inFunction => declaration.functionName ++ ".<locals>."
  | .inClass => declaration.outerName ++ ['.']

def qualifiedName (declaration : ClassDeclaration) : Text :=
  declaration.front ++ declaration.name

end ClassDeclaration

def ModuleDeclaration.text (declaration : ModuleDeclaration) : Text :=
  (preludeLines ++ declaration.globals ++
    declaration.classes.flatMap fun type => [] :: [] :: type.lines).flatMap (· ++ ['\n'])

end Live
end OpenRecord
