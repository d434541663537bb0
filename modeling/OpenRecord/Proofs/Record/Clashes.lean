import Mathlib.Data.List.Nodup
import OpenRecord.Proofs.Expansion.Requests

namespace OpenRecord

/-!
# Models without clashes

A model has no clash exactly if its names keep apart: its fields differ from each other, none of
them is spelled with two leading underscores, and fields, members and names of the scope stay away
from the names that the requested capabilities bring in.
-/

/-- No name stands twice exactly if none repeats another or one that has been seen. -/
theorem firstDuplicate_eq_none_iff {seen names : List Text} :
    firstDuplicate seen names = none ↔ names.Nodup ∧ ∀ name ∈ names, name ∉ seen := by
  induction names generalizing seen with
  | nil => simp [firstDuplicate]
  | cons first later ih =>
    unfold firstDuplicate
    by_cases repeated : first ∈ seen
    · simp [repeated]
    · rw [if_neg (by simpa using repeated), ih, List.nodup_cons, List.forall_mem_cons]
      constructor
      · rintro ⟨distinct, fresh⟩
        refine ⟨⟨fun again => ?_, distinct⟩, repeated, fun name member known => ?_⟩
        · exact fresh first again (List.mem_cons_self ..)
        · exact fresh name member (List.mem_cons_of_mem _ known)
      · rintro ⟨⟨single, distinct⟩, -, fresh⟩
        refine ⟨distinct, fun name member known => ?_⟩
        rcases List.mem_cons.1 known with rfl | known
        · exact single member
        · exact fresh name member known

/-- A name is spelled in a way of its own exactly if it starts with two underscores. -/
theorem reservedSpelling_eq_none_iff {name : Text} :
    reservedSpelling name = none ↔ ¬ dunder <+: name := by
  rw [← List.isPrefixOf_iff_prefix]
  unfold reservedSpelling Visibility.ofName
  by_cases leading : dunder.isPrefixOf name = true
  · by_cases trailing : dunder.isSuffixOf name = true <;> simp [leading, trailing]
  · by_cases single : List.isPrefixOf ['_'] name = true <;> simp [leading, single]

/-- A name stays away from the generated ones exactly if it is none of them. -/
theorem fieldClash_eq_none_iff {model : RecordModel} {settings : Settings} {name : Text} :
    fieldClash model settings name = none ↔
      name ∉ model.generatedTypeNames settings ∧ name ∉ model.generatedMethodNames ∧
        (model.hasView = true → name ∉ viewReservedNames) := by
  unfold fieldClash
  by_cases type : name ∈ model.generatedTypeNames settings
  · simp [type]
  by_cases method : name ∈ model.generatedMethodNames
  · simp [type, method]
  by_cases view : model.hasView = true
  · by_cases reserved : name ∈ viewReservedNames <;> simp [type, method, view, reserved]
  · simp [type, method, view]

/-- What the names of a model owe to each other and to the names of a scope. -/
structure RecordModel.NamesApart (model : RecordModel) (settings : Settings)
    (scope : Option (List Text)) : Prop where
  fields_nodup : model.fieldNames.Nodup
  plain : ∀ name ∈ model.fieldNames, ¬ dunder <+: name
  not_type : ∀ name ∈ model.fieldNames, name ∉ model.generatedTypeNames settings
  not_method : ∀ name ∈ model.fieldNames, name ∉ model.generatedMethodNames
  not_reserved : ∀ name ∈ model.fieldNames, model.hasView = true → name ∉ viewReservedNames
  members : ∀ name ∈ model.memberNames, name ∉ model.generatedMethodNames
  scope_free : ∀ name ∈ model.generatedTypeNames settings, name ∉ scope.getD []

theorem RecordModel.firstClash_eq_none_iff {model : RecordModel} {settings : Settings}
    {scope : Option (List Text)} :
    model.firstClash settings scope = none ↔ model.NamesApart settings scope := by
  simp only [firstClash, Option.or_eq_none_iff, Option.map_eq_none_iff, List.findSome?_eq_none_iff,
    List.find?_eq_none, firstDuplicate_eq_none_iff, reservedSpelling_eq_none_iff,
    fieldClash_eq_none_iff, List.contains_iff_mem]
  constructor
  · rintro ⟨⟨distinct, -⟩, plain, apart, members, free⟩
    exact ⟨distinct, plain, fun name member => (apart name member).1,
      fun name member => (apart name member).2.1, fun name member => (apart name member).2.2,
      members, free⟩
  · intro names
    exact ⟨⟨names.fields_nodup, fun _ _ => List.not_mem_nil⟩, names.plain,
      fun name member => ⟨names.not_type name member, names.not_method name member,
        names.not_reserved name member⟩, names.members, names.scope_free⟩

theorem namesApart_of_generate {model : RecordModel} {settings : Settings}
    {scope : Option (List Text)} {artifacts : List Artifact}
    (generated : generate model settings scope = .ok artifacts) :
    model.NamesApart settings scope :=
  RecordModel.firstClash_eq_none_iff.1 (generate_eq_ok generated).2.1

end OpenRecord
