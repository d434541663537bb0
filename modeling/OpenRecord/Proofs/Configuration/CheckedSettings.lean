import OpenRecord.Proofs.Text.Parts
import OpenRecord.Settings

namespace OpenRecord

/-!
# Checked settings

A setting for which no value is given has its default, which is not checked; but it would pass, so that
a check may be taken as one of four values.  What a check accepts, it accepts again: the affixes have
lost the white space around them, and the switch is no word or number any more.
-/

def SettingValues.ofAll (value : SettingName → SettingValue) : SettingValues :=
  ⟨some (value .companionPrefix), some (value .mutationSuffix), some (value .viewSuffix),
    some (value .injectImports)⟩

def Settings.value (settings : Settings) : SettingName → SettingValue
  | .companionPrefix => .string settings.companionPrefix
  | .mutationSuffix => .string settings.mutationSuffix
  | .viewSuffix => .string settings.viewSuffix
  | .injectImports => .boolean settings.injectImports

/-! ## Affixes -/

/-- What passes as an affix is a string that is one without the white space around it. -/
theorem checkAffix_eq_ok_iff {value : SettingValue} {affix : Text} :
    checkAffix value = .ok affix ↔
      ∃ text, value = .string text ∧ text.trim = affix ∧ affix ≠ [] ∧
        Text.isIdentifier (affixProbe affix) = true := by
  constructor
  · intro checked
    unfold checkAffix at checked
    split at checked
    case h_1 text =>
      dsimp only at checked
      split at checked
      case isTrue => cases checked
      case isFalse solid =>
        split at checked
        case isTrue fits =>
          cases checked
          exact ⟨text, rfl, rfl, solid, fits⟩
        case isFalse => cases checked
    case h_2 => cases checked
  · rintro ⟨text, rfl, rfl, solid, fits⟩
    simp only [checkAffix, solid, fits, if_false, if_true]

theorem trim_of_checkAffix {value : SettingValue} {affix : Text}
    (checked : checkAffix value = .ok affix) : affix.trim = affix := by
  rcases checkAffix_eq_ok_iff.1 checked with ⟨text, -, rfl, -⟩
  exact Text.strip_strip _ text

theorem checkAffix_again {value : SettingValue} {affix : Text}
    (checked : checkAffix value = .ok affix) : checkAffix (.string affix) = .ok affix := by
  have trimmed := trim_of_checkAffix checked
  rcases checkAffix_eq_ok_iff.1 checked with ⟨-, -, -, solid, fits⟩
  exact checkAffix_eq_ok_iff.2 ⟨affix, rfl, trimmed, solid, fits⟩

/-- An affix for which nothing is given is its default, and a default that passes is checked like any
other value. -/
theorem affixOrDefault_eq {fallback : Text}
    (fits : checkAffix (.string fallback) = .ok fallback) (offered : Option SettingValue) :
    affixOrDefault fallback offered = checkAffix (offered.getD (.string fallback)) := by
  cases offered with
  | none => exact fits.symm
  | some value => rfl

theorem switchOrDefault_eq (fallback : Bool) (offered : Option SettingValue) :
    switchOrDefault fallback offered = checkSwitch (offered.getD (.boolean fallback)) := by
  cases offered <;> rfl

/-! ## All settings -/

theorem check_eq_check_ofAll (values : SettingValues) :
    Settings.check values =
      Settings.check (.ofAll fun name => (values.get name).getD (Settings.default.value name)) := by
  have companionPrefix : ∀ offered, affixOrDefault Settings.default.companionPrefix offered = _ :=
    affixOrDefault_eq (by decide +kernel)
  have mutationSuffix : ∀ offered, affixOrDefault Settings.default.mutationSuffix offered = _ :=
    affixOrDefault_eq (by decide +kernel)
  have viewSuffix : ∀ offered, affixOrDefault Settings.default.viewSuffix offered = _ :=
    affixOrDefault_eq (by decide +kernel)
  unfold Settings.check
  rw [companionPrefix, mutationSuffix, viewSuffix, switchOrDefault_eq]
  rfl

/-- Settings that come out of a check have affixes that have passed and two different suffixes. -/
theorem Settings.affixes_of_check {values : SettingValues} {settings : Settings}
    (checked : Settings.check values = .ok settings) :
    (∀ affix ∈ [settings.companionPrefix, settings.mutationSuffix, settings.viewSuffix],
      ∃ value, checkAffix value = .ok affix) ∧
        settings.mutationSuffix ≠ settings.viewSuffix := by
  rw [check_eq_check_ofAll] at checked
  unfold Settings.check at checked
  dsimp only at checked
  split at checked
  case h_1 companionPrefix mutationSuffix viewSuffix injectImports front mutation view switch =>
    split at checked
    case isTrue => cases checked
    case isFalse differ =>
      cases checked
      refine ⟨?_, differ⟩
      simp only [List.forall_mem_cons]
      exact ⟨⟨_, front⟩, ⟨_, mutation⟩, ⟨_, view⟩, nofun⟩
  case h_2 => cases checked

/-- Settings that are in order: each affix is a text without white space around it, the suffixes of
the two views differ, and checking the settings themselves gives them again. -/
structure Settings.IsChecked (settings : Settings) : Prop where
  solid : ∀ affix ∈ [settings.companionPrefix, settings.mutationSuffix, settings.viewSuffix],
    affix ≠ [] ∧ affix.trim = affix
  differ : settings.mutationSuffix ≠ settings.viewSuffix
  again : Settings.check (.ofAll settings.value) = .ok settings

theorem Settings.isChecked_of_check {values : SettingValues} {settings : Settings}
    (checked : Settings.check values = .ok settings) : settings.IsChecked := by
  rcases Settings.affixes_of_check checked with ⟨passed, differ⟩
  refine ⟨?_, differ, ?_⟩
  · intro affix member
    rcases passed affix member with ⟨value, fits⟩
    rcases checkAffix_eq_ok_iff.1 fits with ⟨-, -, -, solid, -⟩
    exact ⟨solid, trim_of_checkAffix fits⟩
  · simp only [List.forall_mem_cons] at passed
    rcases passed with ⟨⟨_, front⟩, ⟨_, mutation⟩, ⟨_, view⟩, -⟩
    simp only [Settings.check, SettingValues.ofAll, affixOrDefault, switchOrDefault, Settings.value,
      checkSwitch, checkAffix_again front, checkAffix_again mutation, checkAffix_again view, differ,
      if_false]

end OpenRecord
