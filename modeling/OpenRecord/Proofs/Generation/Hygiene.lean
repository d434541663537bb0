import Mathlib.Data.List.Flatten
import Mathlib.Data.List.Nodup
import Mathlib.Data.List.Perm.Basic
import OpenRecord.Proofs.Expansion.ImportPlaces
import OpenRecord.Proofs.Record.GeneratedNames

namespace OpenRecord

/-!
# Hygiene of generated names

The generated code of a class uses names of its own: parameters and local values of its methods,
modules, and built-in functions and classes.  Which ones they are depends on the requested
capabilities and on the fields, but not on how the class is called.  A class is free of captures
exactly if neither its name nor the name of one of its generated types is among them, and its
artifacts differ in their names exactly if no generated type is named like a generated method.

Nothing in the check of a model keeps a class or a prefix from having such a name.  With a prefix
like the default one only the name of the class itself can be one.
-/

namespace Code

/-! ## The names that code uses -/

mutual

def Term.names : Term → List Text
  | .name identifier => [identifier]
  | .attribute value _ => value.names
  | .call function arguments => function.names ++ termNames arguments
  | .construct function arguments => function.names ++ argumentNames arguments
  | _ => []

/-- The names that several terms refer to. -/
def termNames : List Term → List Text
  | [] => []
  | first :: later => first.names ++ termNames later

/-- The names that arguments refer to; the names they are passed by are none of them. -/
def argumentNames : List (Text × Term) → List Text
  | [] => []
  | (_, value) :: later => value.names ++ argumentNames later

end

mutual

/-- The names that a command refers to or binds. -/
def Command.names : Command → List Text
  | .assign target value => target.names ++ value.names
  | .evaluate value => value.names
  | .return value => value.names
  | .whenAbsent value body => value.names ++ commandNames body
  | .raise value => value.names
  | .finally body cleanup => commandNames body ++ commandNames cleanup

/-- The names that consecutive commands refer to or bind. -/
def commandNames : List Command → List Text
  | [] => []
  | first :: later => first.names ++ commandNames later

end

/-- The names that the decorator of a method refers to.  A setter is made from the property that its
class binds just before. -/
def MethodRole.names : MethodRole → List Text
  | .plain => []
  | .ofClass => ["classmethod"]
  | .getter => ["property"]
  | .setter => []

/-- The names that a method uses: for its decorator, its parameters and in its body. -/
def Method.names (method : Method) : List Text :=
  method.role.names ++ method.parameters.map (·.name) ++ commandNames method.body

/-- The names that a part of a class uses. -/
def Member.names : Member → List Text
  | .slots _ => []
  | .field _ _ hidden => if hidden then ["dataclasses"] else []
  | .method code => code.names

def Definition.names : Definition → List Text
  | .type code =>
    (if code.derived then [("dataclasses" : Text)] else []) ++ code.members.flatMap (·.names)
  | .method code => code.names

theorem commandNames_eq (commands : List Command) :
    commandNames commands = commands.flatMap (·.names) := by
  induction commands with
  | nil => rfl
  | cons first later ih => rw [commandNames, ih, List.flatMap_cons]

theorem argumentNames_eq (arguments : List (Text × Term)) :
    argumentNames arguments = arguments.flatMap (·.2.names) := by
  induction arguments with
  | nil => rfl
  | cons first later ih => rw [argumentNames, ih, List.flatMap_cons]

end Code

open Code

/-! ## The names that a capability brings in -/

/-- The modules that the code of a capability refers to. -/
def Capability.modules : Capability → List Text
  | .destructure => ["dataclasses"]
  | .mutation => ["typing", "copy"]
  | .destructureRef => []

/-- The names that the code of a capability uses whatever the class is called. -/
def Capability.helperNames (model : RecordModel) : Capability → List Text
  | .destructure => ["dataclasses", "classmethod", "object", "self", "cls", "destruct", "instance"]
  | .mutation =>
    (["typing", "copy", "self", "f", "target", "destruct", "instance", "view"] : List Text) ++
      (if model.fields = [] then [] else [("object" : Text)]) ++
      (if model.exposedFields = [] then []
        else [("property" : Text), ("value" : Text), ("ReferenceError" : Text)])
  | .destructureRef =>
    (["self", "target"] : List Text) ++
      (if model.exposedFields = [] then [] else [("property" : Text)])

namespace RecordModel

/-- The names that the generated code of a model uses whatever the class is called. -/
def helperNames (model : RecordModel) : List Text :=
  model.requested.flatMap (·.helperNames model)

/-- The names that the generated code of a model uses, the modules among them that it needs. -/
def usedNames (model : RecordModel) (settings : Settings) : List Text :=
  requiredImports [model] ++ (synthesize model settings).flatMap (·.definition.names)

/-- A name stands for something else in the generated code of a model than for the class or for one
of its generated types: it is used under any name of the class. -/
def UsesOtherwise (model : RecordModel) (settings : Settings) (name : Text) : Prop :=
  ∀ typeName, name ∈ { model with typeName }.usedNames settings

end RecordModel

section Uses

-- The equations of names are made here once, ahead of all the lemmas that rewrite with them.
attribute [local simp] Term.names Command.names

variable {model : RecordModel} {settings : Settings} {name : Text}

theorem exists_mem_and_iff {α : Type} {members : List α} {p : Prop} :
    (∃ member, member ∈ members ∧ p) ↔ members ≠ [] ∧ p := by
  cases members <;> simp

theorem names_localAttribute (value field : Text) :
    (localAttribute value field).names = [value] :=
  rfl

/-- A write past the guards of a class. -/
theorem names_rawWrite (instanceName field source : Text) :
    (rawWrite instanceName field source).names = [("object" : Text), instanceName, source] :=
  rfl

theorem mem_names_companionArtifact :
    name ∈ (companionArtifact model settings).definition.names ↔ name = "dataclasses" := by
  simp only [companionArtifact, Code.Definition.names, List.mem_append, List.mem_flatMap,
    List.mem_map, if_true, List.mem_singleton]
  refine ⟨?_, .inl⟩
  rintro (same | ⟨member, ⟨field, -, rfl⟩, used⟩)
  · exact same
  · simp only [Code.Member.names, List.mem_ite_nil_right, List.mem_singleton] at used
    exact used.2

/-- The conversion to a companion needs a local value only if a field is hidden. -/
theorem mem_names_intoArtifact (companion : CompanionModel) :
    name ∈ (intoArtifact model companion).definition.names ↔
      name = "self" ∨ name = companion.name ∨
        name = "destruct" ∧ companion.fields.any (·.skip) = true := by
  have hidden : companion.fields.any (·.skip) = true ↔
      companion.fields.filter (·.skip) ≠ [] := by simp
  rw [hidden]
  unfold intoArtifact intoBody
  simp only [Code.Definition.names, Code.Method.names, Code.MethodRole.names, commandNames_eq]
  cases companion.fields.filter (·.skip) with
  | nil =>
    simp only [Code.Command.names, Code.Term.names, argumentNames_eq, List.flatMap_map,
      names_localAttribute, List.flatMap_cons, List.flatMap_nil, List.mem_append, List.mem_cons,
      List.map_cons, List.map_nil, List.mem_flatMap, List.not_mem_nil, or_false]
    grind
  | cons first later =>
    simp only [Code.Command.names, Code.Term.names, argumentNames_eq, List.flatMap_map,
      names_localAttribute, List.flatMap_append, List.flatMap_cons, List.flatMap_nil,
      List.map_cons, List.map_nil, List.mem_append, List.mem_cons, List.mem_flatMap,
      List.not_mem_nil, or_false]
    grind

theorem mem_names_fromArtifact (companion : CompanionModel) :
    name ∈ (fromArtifact model companion).definition.names ↔
      name ∈ (["classmethod", "object", "cls", "destruct", "instance"] : List Text) := by
  simp only [fromArtifact, Code.Definition.names, Code.Method.names, Code.MethodRole.names,
    commandNames_eq, Code.Command.names, Code.Term.names, Code.termNames, names_localAttribute,
    names_rawWrite, List.flatMap_append, List.flatMap_cons, List.flatMap_map, List.flatMap_nil,
    List.map_cons, List.map_nil, List.mem_append, List.mem_cons, List.mem_flatMap,
    List.not_mem_nil, or_false, exists_mem_and_iff]
  grind

/-- The method that builds a changed record. -/
theorem mem_names_reconstructArtifact (companion : CompanionModel) :
    name ∈ (reconstructArtifact model companion).definition.names ↔
      name ∈ (["self", "f", "destruct", "instance", "copy"] : List Text) ∨
        name = "object" ∧ companion.fields ≠ [] := by
  simp only [reconstructArtifact, Code.Definition.names, Code.Method.names, Code.MethodRole.names,
    commandNames_eq, Code.Command.names, Code.Term.names, Code.termNames, names_localAttribute,
    names_rawWrite, List.flatMap_append, List.flatMap_cons, List.flatMap_map, List.flatMap_nil,
    List.map_cons, List.map_nil, List.mem_append, List.mem_cons, List.mem_flatMap,
    List.not_mem_nil, or_false, exists_mem_and_iff]
  grind

/-- The method that changes a record in place. -/
theorem mem_names_substituteArtifact :
    name ∈ (substituteArtifact model settings).definition.names ↔
      name ∈ (["self", "f", "view"] : List Text) ∨
        name = mutationViewName model.typeName settings := by
  simp only [substituteArtifact, Code.Definition.names, Code.Method.names, Code.MethodRole.names,
    commandNames_eq, Code.Command.names, Code.Term.names, Code.termNames, names_localAttribute,
    List.flatMap_cons, List.flatMap_nil, List.map_cons, List.map_nil, List.mem_append,
    List.mem_cons, List.not_mem_nil, or_false]
  grind

/-- The method that returns a read-only view. -/
theorem mem_names_asArtifact :
    name ∈ (asArtifact model settings).definition.names ↔
      name = "self" ∨ name = referenceViewName model.typeName settings := by
  simp only [asArtifact, Code.Definition.names, Code.Method.names, Code.MethodRole.names,
    commandNames_eq, Code.Command.names, Code.Term.names, Code.termNames, List.flatMap_cons,
    List.flatMap_nil, List.map_cons, List.map_nil, List.mem_append, List.mem_cons,
    List.not_mem_nil, or_false]
  grind

theorem mem_names_viewGetter (viewName scope : Text) (writable : Bool) (field : Field) :
    name ∈ (viewGetter viewName scope writable field).names ↔
      name = "property" ∨ name = "self" ∨ writable = true ∧ name = "ReferenceError" := by
  simp only [viewGetter, expired, viewed, Code.Method.names, Code.MethodRole.names,
    commandNames_eq]
  cases writable <;>
    simp only [Code.Command.names, Code.Term.names, Code.termNames, commandNames_eq,
      names_localAttribute, if_true, if_false, Bool.false_eq_true, List.flatMap_append,
      List.flatMap_cons, List.flatMap_nil, List.map_cons, List.map_nil, List.mem_append,
      List.mem_cons, List.not_mem_nil, or_false] <;>
    grind

theorem mem_names_viewSetter (viewName scope : Text) (field : Field) :
    name ∈ (viewSetter viewName scope field).names ↔
      name ∈ (["self", "value", "ReferenceError", "object"] : List Text) := by
  simp only [viewSetter, expired, viewed, Code.Method.names, Code.MethodRole.names,
    Code.Command.names, Code.Term.names, Code.termNames, commandNames_eq, names_localAttribute,
    List.flatMap_cons, List.flatMap_nil, List.map_cons, List.map_nil, List.mem_append,
    List.mem_cons, List.not_mem_nil, or_false]
  grind

/-- A view needs more than its target only if it shows a field, and more than a property for it only
if it is writable. -/
theorem mem_names_viewClass (viewName scope : Text) (writable : Bool) :
    name ∈ (Code.Definition.type (viewClass model viewName writable scope)).names ↔
      name = "self" ∨ name = "target" ∨ model.exposedFields ≠ [] ∧
        (name = "property" ∨
          writable = true ∧ name ∈ (["object", "value", "ReferenceError"] : List Text)) := by
  simp only [viewClass, Code.Definition.names, List.flatMap_cons, List.flatMap_assoc]
  cases writable <;>
    simp only [Code.Member.names, mem_names_viewGetter, mem_names_viewSetter, if_true, if_false,
      Bool.false_eq_true, List.flatMap_cons, List.flatMap_nil, List.mem_append, List.mem_cons,
      List.mem_flatMap, List.not_mem_nil, or_false, exists_mem_and_iff] <;>
    simp only [Code.Method.names, Code.MethodRole.names, commandNames_eq, Code.Command.names,
      Code.Term.names, viewed, names_localAttribute, List.flatMap_cons, List.flatMap_nil,
      List.map_cons, List.map_nil, List.mem_append, List.mem_cons, List.not_mem_nil, or_false] <;>
    grind

/-- The code of a capability uses its helpers and its generated type. -/
theorem mem_names_capabilityArtifacts (capability : Capability) :
    name ∈ capability.modules ∨
        name ∈ (capabilityArtifacts model settings capability).flatMap (·.definition.names) ↔
      name ∈ capability.helperNames model ∨
        name = capability.typeName settings model.typeName := by
  cases capability with
  | destructure =>
    simp only [capabilityArtifacts, conversionArtifacts, List.flatMap_cons, List.flatMap_nil,
      List.mem_append, mem_names_companionArtifact, mem_names_intoArtifact,
      mem_names_fromArtifact, Capability.modules, Capability.helperNames, Capability.typeName,
      RecordModel.companion, List.mem_cons, List.not_mem_nil, or_false]
    grind
  | mutation =>
    simp only [capabilityArtifacts, List.flatMap_cons, List.flatMap_nil, List.mem_append,
      mutationViewArtifact, mem_names_viewClass, mem_names_reconstructArtifact,
      mem_names_substituteArtifact, Capability.modules, Capability.helperNames,
      Capability.typeName, RecordModel.companion, List.mem_cons, List.not_mem_nil, or_false,
      List.mem_ite_nil_left, ne_eq, List.map_eq_nil_iff]
    have shown : model.fields = [] → model.exposedFields = [] := fun empty => by
      rw [RecordModel.exposedFields, empty, List.filter_nil]
    grind
  | destructureRef =>
    simp only [capabilityArtifacts, referenceArtifacts, List.flatMap_cons, List.flatMap_nil,
      List.mem_append, referenceViewArtifact, mem_names_viewClass, mem_names_asArtifact,
      Capability.modules, Capability.helperNames, Capability.typeName, List.mem_cons,
      List.not_mem_nil, or_false, List.mem_ite_nil_left]
    grind

theorem mem_requiredImports_singleton_iff :
    name ∈ requiredImports [model] ↔ ∃ capability ∈ model.requested, name ∈ capability.modules := by
  rw [mem_requiredImports_iff]
  simp only [RecordModel.requested, Capability.all, List.mem_filter, List.mem_cons,
    List.not_mem_nil, or_false, and_assoc, or_and_right, exists_or, exists_eq_left,
    Capability.modules]
  grind

/-- The generated code of a model uses helpers and the generated types. -/
theorem RecordModel.mem_usedNames_iff :
    name ∈ model.usedNames settings ↔
      name ∈ model.helperNames ∨ name ∈ model.generatedTypeNames settings := by
  have each : name ∈ model.usedNames settings ↔ ∃ capability ∈ model.requested,
      name ∈ capability.modules ∨
        name ∈ (capabilityArtifacts model settings capability).flatMap (·.definition.names) := by
    rw [RecordModel.usedNames, List.mem_append, mem_requiredImports_singleton_iff, synthesize,
      List.flatMap_assoc, List.mem_flatMap]
    simp only [and_or_left, exists_or]
  simp only [each, mem_names_capabilityArtifacts]
  simp only [RecordModel.helperNames, RecordModel.generatedTypeNames, List.mem_flatMap,
    List.mem_map, and_or_left, exists_or, eq_comm]

/-- A name stands for something else exactly if it is one of the helpers. -/
theorem RecordModel.usesOtherwise_iff :
    model.UsesOtherwise settings name ↔ name ∈ model.helperNames := by
  unfold RecordModel.UsesOtherwise
  simp only [RecordModel.mem_usedNames_iff]
  constructor
  · intro always
    -- The types that are generated for a class with a longer name are called otherwise.
    refine (always ('_' :: name)).resolve_right fun type => ?_
    rcases List.mem_map.1 type with ⟨capability, -, same⟩
    have longer := congrArg List.length same
    rw [Capability.typeName_eq] at longer
    simp only [List.length_append, List.length_cons] at longer
    omega
  · exact fun helper typeName => .inl helper

end Uses

/-! ## Hygiene -/

/-- What generated code owes to its names: the artifacts differ in them, and neither the class nor a
generated type has one that the code uses for something else. -/
structure Hygienic (model : RecordModel) (settings : Settings) (artifacts : List Artifact) :
    Prop where
  distinct : (artifacts.map (·.name)).Nodup
  apart : ∀ name ∈ model.typeName :: model.generatedTypeNames settings,
    ¬ model.UsesOtherwise settings name

section

variable {model : RecordModel} {settings : Settings}

theorem map_name_capabilityArtifacts (capability : Capability) :
    (capabilityArtifacts model settings capability).map (·.name) =
      capability.typeName settings model.typeName :: capability.methodNames := by
  cases capability <;> rfl

theorem perm_map_name_synthesize :
    ((synthesize model settings).map (·.name)).Perm
      (model.generatedTypeNames settings ++ model.generatedMethodNames) := by
  simp only [synthesize, List.map_flatMap, map_name_capabilityArtifacts]
  exact (List.map_append_flatMap_perm _ _ _).symm

theorem nodup_generatedMethodNames : model.generatedMethodNames.Nodup := by
  have all : (Capability.all.flatMap (·.methodNames)).Nodup := by decide
  exact all.sublist (List.filter_sublist.flatMap _)

/-- The artifacts of a model differ in their names exactly if no type is named like a method. -/
theorem RecordModel.nodup_map_name_synthesize_iff (model : RecordModel)
    (accepted : settings.Accepted) :
    ((synthesize model settings).map (·.name)).Nodup ↔
      ∀ name ∈ model.generatedTypeNames settings, name ∉ model.generatedMethodNames := by
  rw [perm_map_name_synthesize.nodup_iff, List.nodup_append']
  simp only [model.nodup_generatedTypeNames accepted, nodup_generatedMethodNames, true_and]
  rfl

/-- The artifacts of a model are hygienic exactly if the class is named like no helper, and its types
are named like no helper and no method. -/
theorem hygienic_synthesize_iff (accepted : settings.Accepted) :
    Hygienic model settings (synthesize model settings) ↔
      model.typeName ∉ model.helperNames ∧
        ∀ name ∈ model.generatedTypeNames settings,
          name ∉ model.helperNames ∧ name ∉ model.generatedMethodNames := by
  have distinct := model.nodup_map_name_synthesize_iff accepted
  simp only [forall_and]
  constructor
  · rintro ⟨nodup, apart⟩
    simp only [RecordModel.usesOtherwise_iff, List.forall_mem_cons] at apart
    exact ⟨apart.1, apart.2, distinct.1 nodup⟩
  · rintro ⟨class_, types, methods⟩
    refine ⟨distinct.2 methods, ?_⟩
    simp only [RecordModel.usesOtherwise_iff, List.forall_mem_cons]
    exact ⟨class_, types⟩

/-- The letters that helpers and generated methods start with. -/
def helperInitials : List Char :=
  ['a', 'c', 'd', 'f', 'i', 'o', 'p', 'r', 's', 't', 'v', 'R']

/-- Helpers and generated methods start with one of the letters. -/
theorem exists_initial {name : Text}
    (known : name ∈ model.helperNames ∨ name ∈ model.generatedMethodNames) :
    ∃ initial ∈ helperInitials, ∃ later, name = initial :: later := by
  have initials : ∀ names : List Text, names.all (fun name =>
      name.head?.any (helperInitials.contains ·)) = true → name ∈ names →
      ∃ initial ∈ helperInitials, ∃ later, name = initial :: later := by
    intro names all member
    have known := List.all_eq_true.1 all name member
    cases name with
    | nil => cases known
    | cons initial later => exact ⟨initial, by simpa using known, later, rfl⟩
  rcases known with helper | method
  · rcases List.mem_flatMap.1 helper with ⟨capability, -, member⟩
    refine initials _ ?_ member
    cases capability <;> unfold Capability.helperNames <;> repeat' split
    all_goals decide
  · rcases List.mem_flatMap.1 method with ⟨capability, -, member⟩
    exact initials _ (by cases capability <;> decide) member

/-- With a prefix that starts otherwise than every helper and every method, the artifacts are
hygienic exactly if the class itself is named like no helper. -/
theorem hygienic_synthesize_iff_of_initial (accepted : settings.Accepted) {initial : Char}
    {later : Text} (starts : settings.companionPrefix = initial :: later)
    (other : initial ∉ helperInitials) :
    Hygienic model settings (synthesize model settings) ↔ model.typeName ∉ model.helperNames := by
  rw [hygienic_synthesize_iff accepted, and_iff_left_iff_imp]
  rintro - name type
  rw [← not_or]
  intro known
  rcases exists_initial known with ⟨first, member, rest, same⟩
  rcases List.mem_map.1 type with ⟨capability, -, rfl⟩
  rw [Capability.typeName_eq, starts, List.cons_append] at same
  exact other ((List.cons.inj same).1 ▸ member)

end

/-- **Hygiene.**  The artifacts that are generated for a model with checked settings have different
names, and its class and generated types none that the generated code uses for something else, exactly
if the class is named like no helper of its capabilities and none of its types like a helper or a
generated method.  With a prefix that starts otherwise than they do, as the default one does, this is
a matter of the name of the class alone. -/
theorem hygienic_iff {model : RecordModel} {values : SettingValues} {settings : Settings}
    {scope : Option (List Text)} {artifacts : List Artifact}
    (checked : Settings.check values = .ok settings)
    (generated : generate model settings scope = .ok artifacts) :
    (Hygienic model settings artifacts ↔
      model.typeName ∉ model.helperNames ∧
        ∀ name ∈ model.generatedTypeNames settings,
          name ∉ model.helperNames ∧ name ∉ model.generatedMethodNames) ∧
    ∀ initial later, settings.companionPrefix = initial :: later → initial ∉ helperInitials →
      (Hygienic model settings artifacts ↔ model.typeName ∉ model.helperNames) := by
  rcases generate_eq_ok generated with ⟨rfl, -, -⟩
  have accepted := Settings.accepted_of_check checked
  exact ⟨hygienic_synthesize_iff accepted, fun initial later starts other =>
    hygienic_synthesize_iff_of_initial accepted starts other⟩

/-- A record with one field for which a read-only view is requested. -/
def viewedRecord : RecordModel where
  typeName := "P"
  genericStyle := .none
  genericParameters := []
  genericBase := none
  fields := [⟨"x", "int", 0, .isPublic, false⟩]
  capabilities := ⟨false, false, true⟩
  memberNames := []
  location := none

/-- Its artifacts are hygienic with the default settings. -/
theorem viewedRecord_hygienic :
    ∃ artifacts, Settings.check .empty = .ok .default ∧
      generate viewedRecord .default none = .ok artifacts ∧
      Hygienic viewedRecord .default artifacts := by
  have returns : (generate viewedRecord .default none).isOk = true := by decide +kernel
  cases generated : generate viewedRecord .default none with
  | error diagnostic => simp [generated, Except.isOk, Except.toBool] at returns
  | ok artifacts =>
    refine ⟨artifacts, Settings.check_empty, rfl, ?_⟩
    exact ((hygienic_iff Settings.check_empty generated).2 'D' "estruct" rfl (by decide)).2
      (by decide +kernel)

end OpenRecord
