import OpenRecord.Decimal
import OpenRecord.Text.Blank
import OpenRecord.Text.Identifier

namespace OpenRecord

/-!
# Settings

Four settings control generation: the affixes of the three generated type names, and whether
imports are added.  Settings come as values of unknown type, from a configuration file or from a
caller, and are checked one by one; only if each of them is in order are the two suffixes compared.
-/

structure Settings where
  companionPrefix : Text
  mutationSuffix : Text
  viewSuffix : Text
  injectImports : Bool
deriving DecidableEq

namespace Settings

/-- What holds unless something else is said. -/
def default : Settings :=
  ⟨"Destruct", "Ref", "View", true⟩

end Settings

inductive SettingValue
  | string (text : Text)
  | boolean (value : Bool)
  /-- A number that is whole. -/
  | whole (value : Int)
  /-- A number that is not whole, or no number at all. -/
  | fractional
  /-- A value of another type. -/
  | other
deriving DecidableEq

inductive SettingName
  | companionPrefix
  | mutationSuffix
  | viewSuffix
  | injectImports
deriving DecidableEq

namespace SettingName

/-- The settings in the order in which they are checked. -/
def all : List SettingName :=
  [.companionPrefix, .mutationSuffix, .viewSuffix, .injectImports]

def label : SettingName → Text
  | .companionPrefix => "companion_prefix"
  | .mutationSuffix => "mutation_suffix"
  | .viewSuffix => "view_suffix"
  | .injectImports => "inject_imports"

def ofLabel? (label : Text) : Option SettingName :=
  all.find? (·.label == label)

end SettingName

/-- What can be wrong with a single setting, or with the two suffixes together. -/
inductive SettingProblem
  | notAString
  | emptyAffix
  | notInIdentifier (affix : Text)
  /-- A value of a fitting type that says neither yes nor no. -/
  | unclearBoolean
  | notABoolean
  | equalSuffixes
deriving DecidableEq

namespace SettingProblem

def category : SettingProblem → Text
  | .notAString => "string_type"
  | .emptyAffix => "value_error"
  | .notInIdentifier _ => "value_error"
  | .unclearBoolean => "bool_parsing"
  | .notABoolean => "bool_type"
  | .equalSuffixes => "value_error"

def message : SettingProblem → Text
  | .notAString => "Input should be a valid string"
  | .emptyAffix =>
    "Value error, Affix must not be empty; generated names would shadow the original type."
  | .notInIdentifier affix =>
    "Value error, Affix '" ++ affix ++ "' is not valid inside a Python identifier."
  | .unclearBoolean => "Input should be a valid boolean, unable to interpret input"
  | .notABoolean => "Input should be a valid boolean"
  | .equalSuffixes => "Value error, mutation_suffix and view_suffix must differ."

end SettingProblem

/-- A problem with the setting it is found at, or with the settings as a whole. -/
structure SettingFault where
  place : Option SettingName
  problem : SettingProblem
deriving DecidableEq

structure SettingValues where
  companionPrefix : Option SettingValue
  mutationSuffix : Option SettingValue
  viewSuffix : Option SettingValue
  injectImports : Option SettingValue
deriving DecidableEq

namespace SettingValues

def empty : SettingValues :=
  ⟨none, none, none, none⟩

def get (values : SettingValues) : SettingName → Option SettingValue
  | .companionPrefix => values.companionPrefix
  | .mutationSuffix => values.mutationSuffix
  | .viewSuffix => values.viewSuffix
  | .injectImports => values.injectImports

/-- The values with one of them given anew. -/
def set (values : SettingValues) (value : SettingValue) : SettingName → SettingValues
  | .companionPrefix => { values with companionPrefix := some value }
  | .mutationSuffix => { values with mutationSuffix := some value }
  | .viewSuffix => { values with viewSuffix := some value }
  | .injectImports => { values with injectImports := some value }

/-- Values from labelled ones; an unknown label has no effect and the last of equal ones counts. -/
def ofList (labelled : List (Text × SettingValue)) : SettingValues :=
  labelled.foldl
    (fun values (label, value) =>
      match SettingName.ofLabel? label with
      | some name => values.set value name
      | none => values)
    empty

/-- The values of one source where it has them, else those of another. -/
def orElse (upper lower : SettingValues) : SettingValues :=
  ⟨upper.companionPrefix.or lower.companionPrefix, upper.mutationSuffix.or lower.mutationSuffix,
    upper.viewSuffix.or lower.viewSuffix, upper.injectImports.or lower.injectImports⟩

theorem get_orElse (upper lower : SettingValues) (name : SettingName) :
    (upper.orElse lower).get name = (upper.get name).or (lower.get name) := by
  cases name <;> rfl

end SettingValues

/-! ## Checking -/

/-- A name of which an affix is the end. -/
def affixProbe (affix : Text) : Text :=
  'X' :: affix

/-- An affix without the white space around it. It has to fit into an identifier. -/
def checkAffix : SettingValue → Except SettingProblem Text
  | .string text =>
    let affix := text.trim
    if affix = [] then .error .emptyAffix
    else if Text.isIdentifier (affixProbe affix) then .ok affix
    else .error (.notInIdentifier affix)
  | _ => .error .notAString

def affirmatives : List Text :=
  ["1", "on", "t", "true", "y", "yes"]

def negatives : List Text :=
  ["0", "off", "f", "false", "n", "no"]

/-- Whether a whole number fits into a signed word of 64 bits. -/
def fitsWord (value : Int) : Bool :=
  decide (-(Decimal.powerOfTwo 63 : Int) ≤ value) && decide (value < Decimal.powerOfTwo 63)

/-- A switch, which may also be written as a number or in words of either case.  A number that does
not fit into a word counts as no number. -/
def checkSwitch : SettingValue → Except SettingProblem Bool
  | .boolean value => .ok value
  | .whole 0 => .ok false
  | .whole 1 => .ok true
  | .whole value => .error (if fitsWord value then .unclearBoolean else .notABoolean)
  | .string text =>
    let word := text.map Char.toLower
    if affirmatives.contains word then .ok true
    else if negatives.contains word then .ok false
    else .error .unclearBoolean
  | .fractional => .error .notABoolean
  | .other => .error .notABoolean

/-- The checked value of an affix, or its default if none is given. -/
def affixOrDefault (fallback : Text) : Option SettingValue → Except SettingProblem Text
  | none => .ok fallback
  | some value => checkAffix value

/-- The checked value of the switch, or its default if none is given. -/
def switchOrDefault (fallback : Bool) : Option SettingValue → Except SettingProblem Bool
  | none => .ok fallback
  | some value => checkSwitch value

/-- The fault that a checked setting contributes. -/
def faultAt {α : Type} (place : SettingName) : Except SettingProblem α → List SettingFault
  | .ok _ => []
  | .error problem => [⟨some place, problem⟩]

/-- Settings from values: all faults in order, or the settings. -/
def Settings.check (values : SettingValues) : Except (List SettingFault) Settings :=
  let companionPrefix := affixOrDefault Settings.default.companionPrefix values.companionPrefix
  let mutationSuffix := affixOrDefault Settings.default.mutationSuffix values.mutationSuffix
  let viewSuffix := affixOrDefault Settings.default.viewSuffix values.viewSuffix
  let injectImports := switchOrDefault Settings.default.injectImports values.injectImports
  match companionPrefix, mutationSuffix, viewSuffix, injectImports with
  | .ok companionPrefix, .ok mutationSuffix, .ok viewSuffix, .ok injectImports =>
    if mutationSuffix = viewSuffix then .error [⟨none, .equalSuffixes⟩]
    else .ok ⟨companionPrefix, mutationSuffix, viewSuffix, injectImports⟩
  | _, _, _, _ =>
    .error (faultAt .companionPrefix companionPrefix ++ faultAt .mutationSuffix mutationSuffix ++
      faultAt .viewSuffix viewSuffix ++ faultAt .injectImports injectImports)

/-- Nothing given is in order and gives the defaults. -/
theorem Settings.check_empty : Settings.check .empty = .ok Settings.default := by
  rfl

end OpenRecord
