import Mathlib.Data.List.Nodup
import OpenRecord.Proofs.Configuration.CheckedSettings
import OpenRecord.Record.GeneratedNames

namespace OpenRecord

/-!
# Names from accepted settings

Settings that have been checked have affixes of which none is empty, that fit into identifiers, and
two different suffixes.  Hence every generated type name of a class consists of characters of names,
and the three names of one class differ.
-/

/-- What checked settings say about the affixes. -/
structure Settings.Accepted (settings : Settings) : Prop where
  prefix_chars : ∀ x ∈ settings.companionPrefix, Text.isNameContinue x = true
  mutation_chars : ∀ x ∈ settings.mutationSuffix, Text.isNameContinue x = true
  view_chars : ∀ x ∈ settings.viewSuffix, Text.isNameContinue x = true
  mutation_ne_nil : settings.mutationSuffix ≠ []
  view_ne_nil : settings.viewSuffix ≠ []
  suffixes_ne : settings.mutationSuffix ≠ settings.viewSuffix

/-- An affix that passes its check consists of characters of names. -/
theorem chars_of_checkAffix {value : SettingValue} {affix : Text}
    (checked : checkAffix value = .ok affix) : ∀ x ∈ affix, Text.isNameContinue x = true := by
  rcases checkAffix_eq_ok_iff.1 checked with ⟨-, -, -, -, identifier⟩
  simp only [affixProbe, Text.isIdentifier, Bool.and_eq_true, List.all_eq_true] at identifier
  exact identifier.2

theorem Settings.accepted_of_check {values : SettingValues} {settings : Settings}
    (checked : Settings.check values = .ok settings) : settings.Accepted := by
  have solid := (Settings.isChecked_of_check checked).solid
  rcases Settings.affixes_of_check checked with ⟨passed, different⟩
  simp only [List.forall_mem_cons] at solid passed
  rcases passed with ⟨⟨_, front⟩, ⟨_, mutation⟩, ⟨_, view⟩, -⟩
  exact ⟨chars_of_checkAffix front, chars_of_checkAffix mutation, chars_of_checkAffix view,
    solid.2.1.1, solid.2.2.1.1, different⟩

/-! ## Suffixes -/

namespace Capability

/-- What stands behind the type name in the name of the generated type. -/
def typeSuffix (settings : Settings) : Capability → Text
  | .destructure => []
  | .mutation => settings.mutationSuffix
  | .destructureRef => settings.viewSuffix

theorem typeName_eq (settings : Settings) (name : Text) (capability : Capability) :
    capability.typeName settings name =
      settings.companionPrefix ++ (name ++ capability.typeSuffix settings) := by
  cases capability <;>
    simp [typeName, typeSuffix, companionName, mutationViewName, referenceViewName]

/-- Two generated type names are equal if they are behind the prefix. -/
theorem typeName_eq_iff {settings : Settings} {name other : Text} {first second : Capability} :
    first.typeName settings name = second.typeName settings other ↔
      name ++ first.typeSuffix settings = other ++ second.typeSuffix settings := by
  rw [typeName_eq, typeName_eq, List.append_right_inj]

theorem typeSuffix_injective {settings : Settings} (accepted : settings.Accepted)
    {first second : Capability} (same : first.typeSuffix settings = second.typeSuffix settings) :
    first = second := by
  cases first <;> cases second <;> simp only [typeSuffix] at same
  case destructure.mutation => exact absurd same.symm accepted.mutation_ne_nil
  case destructure.destructureRef => exact absurd same.symm accepted.view_ne_nil
  case mutation.destructure => exact absurd same accepted.mutation_ne_nil
  case mutation.destructureRef => exact absurd same accepted.suffixes_ne
  case destructureRef.destructure => exact absurd same accepted.view_ne_nil
  case destructureRef.mutation => exact absurd same.symm accepted.suffixes_ne
  all_goals rfl

/-- The generated types of one class have different names. -/
theorem typeName_injective {settings : Settings} (accepted : settings.Accepted) {name : Text}
    {first second : Capability}
    (same : first.typeName settings name = second.typeName settings name) : first = second :=
  typeSuffix_injective accepted (List.append_cancel_left (typeName_eq_iff.1 same))

/-- A generated type name consists of characters of names. -/
theorem typeName_chars {settings : Settings} (accepted : settings.Accepted) {name : Text}
    (chars : ∀ x ∈ name, Text.isNameContinue x = true) (capability : Capability) :
    ∀ x ∈ capability.typeName settings name, Text.isNameContinue x = true := by
  rw [typeName_eq, List.forall_mem_append, List.forall_mem_append]
  refine ⟨accepted.prefix_chars, chars, ?_⟩
  cases capability with
  | destructure => simp [typeSuffix]
  | mutation => exact accepted.mutation_chars
  | destructureRef => exact accepted.view_chars

theorem typeName_ne_nil {settings : Settings} {name : Text} (nonempty : name ≠ [])
    (capability : Capability) : capability.typeName settings name ≠ [] := by
  rw [typeName_eq]
  simp [nonempty]

/-- The types of several capabilities of one class differ in their names. -/
theorem nodup_map_typeName {settings : Settings} (accepted : settings.Accepted)
    (requested : Capability → Bool) (name : Text) :
    ((all.filter requested).map (·.typeName settings name)).Nodup := by
  have distinct : all.Nodup := by decide
  exact (distinct.filter requested).map fun _ _ same => typeName_injective accepted same

end Capability

theorem RecordModel.nodup_generatedTypeNames {settings : Settings} (accepted : settings.Accepted)
    (model : RecordModel) : (model.generatedTypeNames settings).Nodup :=
  Capability.nodup_map_typeName accepted model.requests model.typeName

/-! ## Requested capabilities -/

theorem Capability.mem_all (capability : Capability) : capability ∈ Capability.all := by
  cases capability <;> decide

section Requested

variable {model : RecordModel} {settings : Settings} {capability : Capability} {key : Text}

theorem mem_requested : capability ∈ model.requested ↔ model.requests capability = true := by
  rw [RecordModel.requested, List.mem_filter]
  exact and_iff_right (Capability.mem_all capability)

theorem mem_generatedTypeNames :
    key ∈ model.generatedTypeNames settings ↔ ∃ capability, model.requests capability = true ∧
      capability.typeName settings model.typeName = key := by
  simp only [RecordModel.generatedTypeNames, List.mem_map, mem_requested]

theorem mem_generatedMethodNames :
    key ∈ model.generatedMethodNames ↔ ∃ capability, model.requests capability = true ∧
      key ∈ capability.methodNames := by
  simp only [RecordModel.generatedMethodNames, List.mem_flatMap, mem_requested]

end Requested

end OpenRecord
