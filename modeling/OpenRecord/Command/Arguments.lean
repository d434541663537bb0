import OpenRecord.Text.Digit
import OpenRecord.Text.Quoted

namespace OpenRecord
namespace Command

/-!
# Arguments and options

An argument that starts with a hyphen and is more than that is an option, unless it is a negative
number or holds a space.  A long option may be shortened as long as it stays unique, and its value
may follow in the same argument after an equals sign.  Short options take no value and may share
one hyphen.  After an argument of two hyphens there are no options.  What fits nowhere is kept, so
that the caller can refuse it.
-/

structure OptionRule (α : Type) where
  names : List Text
  takesValue : Bool
  meaning : α

def OptionRule.title {α : Type} (rule : OptionRule α) : Text :=
  Text.join ['/'] rule.names

/-- What can be wrong with the arguments of a program. -/
inductive UsageCause
  | ambiguous (written : Text) (candidates : List Text)
  | valueIgnored (title : Text) (value : Text)
  | valueExpected (title : Text)
  | unknownChoice (title : Text) (value : Text) (choices : List Text)
  | operandMissing (title : Text)
  | unrecognized (arguments : List Text)
deriving DecidableEq

def UsageCause.message : UsageCause → Text
  | .ambiguous written candidates =>
    "ambiguous option: " ++ written ++ " could match " ++ Text.join ", " candidates
  | .valueIgnored title value =>
    "argument " ++ title ++ ": ignored explicit argument " ++ value.quoted
  | .valueExpected title => "argument " ++ title ++ ": expected one argument"
  | .unknownChoice title value choices =>
    "argument " ++ title ++ ": invalid choice: " ++ value.quoted ++ " (choose from " ++
      Text.join ", " (choices.map Text.quoted) ++ ")"
  | .operandMissing title => "the following arguments are required: " ++ title
  | .unrecognized arguments => "unrecognized arguments: " ++ Text.join [' '] arguments

/-! ## What an argument is -/

/-- A value that is part of the argument of its option, and whether an equals sign is before it. -/
structure Attached where
  value : Text
  equals : Bool

/-- An option as it was asked for: the rule, the name that was meant and the attached value. -/
structure Request (α : Type) where
  rule : OptionRule α
  name : Text
  attached : Option Attached

inductive Reading (α : Type)
  | plain
  /-- The argument of two hyphens. -/
  | separator
  | unknown
  | option (request : Request α)

/-- Two hyphens, which also start the long names. -/
def doubleHyphen : Text := ['-', '-']

/-- The part of a text before the first equals sign, and the part after it if there is one. -/
def splitEquals (t : Text) : Text × Option Attached :=
  match t.dropWhile (· ≠ '=') with
  | [] => (t, none)
  | _ :: value => (t.takeWhile (· ≠ '='), some ⟨value, true⟩)

def allNames {α : Type} (rules : List (OptionRule α)) : List (OptionRule α × Text) :=
  rules.flatMap fun rule => rule.names.map fun name => (rule, name)

def ruleNamed? {α : Type} (rules : List (OptionRule α)) (name : Text) : Option (OptionRule α) :=
  rules.find? (·.names.contains name)

/-- What an argument that is no full name of an option may be short for. -/
def candidates {α : Type} (rules : List (OptionRule α)) (argument : Text) : List (Request α) :=
  if doubleHyphen.isPrefixOf argument then
    match splitEquals argument with
    | (start, attached) =>
      (allNames rules).filterMap fun (rule, name) =>
        if start.isPrefixOf name then some ⟨rule, name, attached⟩ else none
  else
    (allNames rules).filterMap fun (rule, name) =>
      if name = argument.take 2 then some ⟨rule, name, some ⟨argument.drop 2, false⟩⟩
      else if argument.isPrefixOf name then some ⟨rule, name, none⟩
      else none

def allDigits (t : Text) : Bool :=
  !t.isEmpty && t.all Text.isDecimal

/-- Whether an argument is a negative number, with or without a fraction.  A line feed at its end
makes no difference. -/
def isNegativeNumber (argument : Text) : Bool :=
  let written :=
    match argument.reverse with
    | '\n' :: rest => rest.reverse
    | _ => argument
  match written with
  | '-' :: number =>
    match number.dropWhile Text.isDecimal with
    | [] => allDigits number
    | '.' :: digits => allDigits digits
    | _ => false
  | _ => false

/-- What an argument is taken for if no argument of two hyphens stands before it. -/
def read {α : Type} (rules : List (OptionRule α)) (argument : Text) :
    Except UsageCause (Reading α) :=
  match argument with
  | [] => .ok .plain
  | ['-'] => .ok .plain
  | '-' :: _ =>
    if argument = doubleHyphen then .ok .separator
    else match ruleNamed? rules argument with
      | some rule => .ok (.option ⟨rule, argument, none⟩)
      | none =>
        match splitEquals argument with
        | (name, attached) =>
          match attached, ruleNamed? rules name with
          | some attached, some rule => .ok (.option ⟨rule, name, some attached⟩)
          | _, _ =>
            match candidates rules argument with
            | [request] => .ok (.option request)
            | [] =>
              if isNegativeNumber argument || argument.contains ' ' then .ok .plain
              else .ok .unknown
            | several => .error (.ambiguous argument (several.map (·.name)))
  | _ => .ok .plain

/-- What every argument is taken for, or what is wrong with the first that is ambiguous. -/
def readAll {α : Type} (rules : List (OptionRule α)) :
    List Text → Except UsageCause (List (Text × Reading α))
  | [] => .ok []
  | argument :: later =>
    match read rules argument with
    | .error cause => .error cause
    | .ok .separator => .ok ((argument, .separator) :: later.map fun other => (other, .plain))
    | .ok reading =>
      match readAll rules later with
      | .error cause => .error cause
      | .ok readings => .ok ((argument, reading) :: readings)

/-! ## What the arguments ask for -/

/-- What the arguments have asked for so far. -/
structure Collected (α : Type) where
  /-- The options in order, with their values. -/
  chosen : List (α × Option Text)
  /-- The operand, and if it takes all that follows, that too. -/
  operand : Option (List Text)
  /-- What fits nowhere. -/
  extras : List Text

namespace Collected

def empty {α : Type} : Collected α :=
  ⟨[], none, []⟩

def choose {α : Type} (collected : Collected α) (meaning : α) (value : Option Text) :
    Collected α :=
  { collected with chosen := collected.chosen ++ [(meaning, value)] }

/-- With one argument more that fits nowhere. -/
def keep {α : Type} (collected : Collected α) (argument : Text) : Collected α :=
  { collected with extras := collected.extras ++ [argument] }

def take {α : Type} (collected : Collected α) (operand : List Text) : Collected α :=
  { collected with operand := some operand }

end Collected

/-- What is left of an argument after the options that share its hyphen: nothing, an option whose
value has to follow, or a text that is no option. -/
inductive Remainder (α : Type)
  | done
  | open (rule : OptionRule α)
  | unknown (argument : Text)

/-- The options that share one hyphen, from one whose attached value is the rest of them. -/
def spread {α : Type} (rules : List (OptionRule α)) (rule : OptionRule α) :
    Text → Except UsageCause (List α × Remainder α)
  | [] => .ok ([], .open rule)
  | c :: rest =>
    if c = '-' then .error (.valueIgnored rule.title (c :: rest))
    else match ruleNamed? rules ['-', c] with
      | none => .ok ([rule.meaning], .unknown ('-' :: c :: rest))
      | some next =>
        match rest with
        | '=' :: value =>
          .error (.valueIgnored next.title value)
        | _ =>
          match spread rules next rest with
          | .error cause => .error cause
          | .ok (meanings, remainder) => .ok (rule.meaning :: meanings, remainder)

/-- What an option and its attached value ask for, and what is left of the argument. -/
def resolve {α : Type} (rules : List (OptionRule α)) (request : Request α) :
    Except UsageCause (List (α × Option Text) × Remainder α) :=
  match request.attached with
  | none => .ok ([], .open request.rule)
  | some attached =>
    if request.rule.takesValue then .ok ([(request.rule.meaning, some attached.value)], .done)
    else if doubleHyphen.isPrefixOf request.name || attached.equals || attached.value.isEmpty then
      .error (.valueIgnored request.rule.title attached.value)
    else
      match spread rules request.rule attached.value with
      | .error cause => .error cause
      | .ok (meanings, remainder) => .ok (meanings.map fun meaning => (meaning, none), remainder)

/-- What the arguments ask for.  The operand is the first plain argument; a `greedy` one takes all
arguments after it.  An option that is `final` ends the reading. -/
def collect {α : Type} (rules : List (OptionRule α)) (greedy : Bool) (final : α → Bool) :
    Collected α → List (Text × Reading α) → Except UsageCause (Collected α)
  | collected, [] => .ok collected
  | collected, (argument, .plain) :: later =>
    match collected.operand with
    | some _ => collect rules greedy final (collected.keep argument) later
    | none =>
      if greedy then .ok (collected.take (argument :: later.map (·.1)))
      else
        match later with
        | (_, .separator) :: later => collect rules greedy final (collected.take [argument]) later
        | later => collect rules greedy final (collected.take [argument]) later
  | collected, (argument, .separator) :: later =>
    match collected.operand, later with
    | none, (next, .plain) :: later =>
      if greedy then .ok (collected.take (argument :: next :: later.map (·.1)))
      else collect rules greedy final (collected.take [next]) later
    | _, later => collect rules greedy final (collected.keep argument) later
  | collected, (argument, .unknown) :: later =>
    collect rules greedy final (collected.keep argument) later
  | collected, (_, .option request) :: later =>
    match resolve rules request with
    | .error cause => .error cause
    | .ok (chosen, remainder) =>
      let collected := { collected with chosen := collected.chosen ++ chosen }
      if chosen.any (final ·.1) then .ok collected
      else match remainder with
        | .done => collect rules greedy final collected later
        | .unknown argument => collect rules greedy final (collected.keep argument) later
        | .open rule =>
          if rule.takesValue then
            match later with
            | (value, .plain) :: later =>
              collect rules greedy final (collected.choose rule.meaning (some value)) later
            | _ => .error (.valueExpected rule.title)
          else if final rule.meaning then .ok (collected.choose rule.meaning none)
          else collect rules greedy final (collected.choose rule.meaning none) later

def parse {α : Type} (rules : List (OptionRule α)) (greedy : Bool) (final : α → Bool)
    (arguments : List Text) : Except UsageCause (Collected α) :=
  match readAll rules arguments with
  | .error cause => .error cause
  | .ok readings => collect rules greedy final .empty readings

end Command
end OpenRecord
