import OpenRecord.Proofs.Expansion.Leftovers

namespace OpenRecord

/-!
# Adding imports

Imports are added for modules with plain names that are required in some order.  Which of them are
missing is said here without the program: an import binds the new name that it gives to a module, and
else the first part of the name of the module, and it counts if it is a plain import in one of the
top-level statements.  Imports out of a module do not count, and neither do imports in a block.

The missing modules are imported by one run of lines, nothing else is changed, and nothing is missing
afterwards.  Where the run stands is not said.
-/

open Source

/-! ## Plain imports -/

/-- A part of a plain import binds a name. -/
inductive Source.Alias.Binds (name : Text) : Alias → Prop
  | renamed (dotted : Text) : Source.Alias.Binds name ⟨dotted, some name⟩
  | module : '.' ∉ name → Source.Alias.Binds name ⟨name, none⟩
  | package (rest : Text) : '.' ∉ name → Source.Alias.Binds name ⟨name ++ '.' :: rest, none⟩

/-- A plain import among the small statements of a line binds a name. -/
inductive Source.Statement.BindsByImport (name : Text) : Statement → Prop
  | line {above : List Line} {items : List Item} {ending : LineEnd} {item : Item}
      {aliases : List Alias} {imported : Alias} :
    item ∈ items → item.form = .imports aliases → imported ∈ aliases → imported.Binds name →
    Source.Statement.BindsByImport name (.simple above items ending)

/-- A name is bound by a plain import directly in one of some statements. -/
def IsImported (name : Text) (statements : List Statement) : Prop :=
  ∃ statement ∈ statements, statement.BindsByImport name

/-- The name that the program finds for a part of an import is the one that it binds. -/
theorem Source.Alias.boundName_eq_iff {name : Text} {imported : Alias} :
    imported.boundName = name ↔ imported.Binds name := by
  constructor
  · rintro rfl
    rcases imported with ⟨dotted, _ | renamed⟩
    · have free := Text.notMem_before '.' dotted
      change Alias.Binds (Text.before '.' dotted) ⟨dotted, none⟩
      rcases Text.before_cases '.' dotted with whole | ⟨rest, parts⟩
      · rw [← whole] at free ⊢
        exact .module free
      · generalize Text.before '.' dotted = front at free parts ⊢
        subst parts
        exact .package rest free
    · exact .renamed dotted
  · intro binds
    cases binds with
    | renamed dotted => rfl
    | module free =>
      have same := Text.before_append free (.inl rfl)
      rwa [List.append_nil] at same
    | package rest free => exact Text.before_append free (.inr ⟨rest, rfl⟩)

/-- The names that the program finds are those that plain imports bind. -/
theorem isImported_iff {name : Text} {statements : List Statement} :
    IsImported name statements ↔ name ∈ importedNames statements := by
  unfold importedNames
  rw [List.mem_flatMap]
  constructor
  · rintro ⟨statement, member, binds⟩
    refine ⟨statement, member, ?_⟩
    cases binds with
    | line among form listed binds =>
      refine List.mem_flatMap.2 ⟨_, among, ?_⟩
      rw [form]
      exact List.mem_map.2 ⟨_, listed, Alias.boundName_eq_iff.2 binds⟩
  · rintro ⟨statement, member, found⟩
    refine ⟨statement, member, ?_⟩
    split at found
    case h_1 above items ending =>
      rcases List.mem_flatMap.1 found with ⟨item, among, found⟩
      split at found
      case h_1 aliases form =>
        rcases List.mem_map.1 found with ⟨imported, listed, named⟩
        exact .line among form listed (Alias.boundName_eq_iff.1 named)
      case h_2 => cases found
    case h_2 => cases found

instance (name : Text) (statements : List Statement) : Decidable (IsImported name statements) :=
  decidable_of_iff ((importedNames statements).contains name = true)
    (List.contains_iff_mem.trans isImported_iff.symm)

/-- The missing modules are those that no plain import binds. -/
theorem missingImports_eq (required : List Text) (statements : List Statement) :
    missingImports required statements =
      required.filter fun name => ¬ IsImported name statements := by
  apply List.filter_congr
  intro name _
  rw [decide_not, decide_eq_decide.2 isImported_iff, List.contains_eq_mem]

theorem IsImported.mono {name : Text} {statements more : List Statement}
    (imported : IsImported name statements) (subset : statements ⊆ more) :
    IsImported name more := by
  rcases imported with ⟨statement, member, binds⟩
  exact ⟨statement, subset member, binds⟩

theorem bindsByImport_importLine {name : Text} (named : name.IsName) :
    (importLine name).BindsByImport name :=
  .line (List.mem_singleton_self _) rfl (List.mem_singleton_self _)
    (.module (named.notMem (by decide)))

/-! ## The added lines -/

/-- The imports of modules with plain names are written as their lines. -/
theorem mapM_importStatement? {names : List Text} (named : ∀ name ∈ names, name.IsName) :
    names.mapM importStatement? = some (names.map importLine) := by
  induction names with
  | nil => rfl
  | cons first later ih =>
    rw [List.forall_mem_cons] at named
    have head : importStatement? first = some (importLine first) := parse?_import named.1
    rw [List.mapM_cons, head, ih named.2]
    rfl

theorem exists_addImports_eq {required : List Text} (named : ∀ name ∈ required, name.IsName)
    (file : SourceFile) :
    ∃ front back, file.body = front ++ back ∧
      addImports required file =
        some ({ file with
          body := front ++ (missingImports required file.body).map importLine ++ back },
          missingImports required file.body) := by
  have parts := splitPrologue_append file.body
  refine ⟨_, _, parts.symm, ?_⟩
  have plain : ∀ name ∈ missingImports required file.body, name.IsName :=
    fun name member => named name (List.mem_filter.1 member).1
  have read := mapM_importStatement? plain
  unfold addImports
  cases missing : missingImports required file.body with
  | nil =>
    rw [List.map_nil, List.append_nil, parts]
    rfl
  | cons first later =>
    rw [missing] at read
    simp only [read, Option.bind_eq_bind, Option.bind_some, List.isEmpty_cons, Bool.false_eq_true,
      if_false]

/-- Adding imports is minimal, conservative and idempotent.  For modules with plain names it puts, in
the order of the list, one line for each module that no plain import at the top level binds, all of
them together, between two parts of the statements, and changes nothing else.  Afterwards all of the
modules are imported, and adding any of them again adds nothing and leaves the file as it is. -/
theorem addImports_exact {required : List Text} (named : ∀ name ∈ required, name.IsName)
    (file : SourceFile) :
    ∃ front back injected result, addImports required file = some (result, injected) ∧
      file.body = front ++ back ∧
      (injected = required.filter fun name => ¬ IsImported name file.body) ∧
      result = { file with body := front ++ injected.map importLine ++ back } ∧
      (∀ name ∈ required, name ∈ importedNames result.body) ∧
      ∀ again, again.Sublist required → addImports again result = some (result, []) := by
  rcases exists_addImports_eq named file with ⟨front, back, parts, added⟩
  have missing := missingImports_eq required file.body
  rw [missing] at added
  generalize injected_eq : (required.filter fun name => ¬ IsImported name file.body) = injected
    at added
  have imported : ∀ name ∈ required,
      name ∈ importedNames (front ++ injected.map importLine ++ back) := by
    intro name member
    rw [← isImported_iff]
    by_cases known : IsImported name file.body
    · apply known.mono
      rw [parts]
      intro statement among
      rcases List.mem_append.1 among with former | latter
      · exact List.mem_append_left _ (List.mem_append_left _ former)
      · exact List.mem_append_right _ latter
    · have new : name ∈ injected := by
        rw [← injected_eq]
        exact List.mem_filter.2 ⟨member, decide_eq_true known⟩
      refine ⟨importLine name, ?_, bindsByImport_importLine (named name member)⟩
      exact List.mem_append_left _ (List.mem_append_right _ (List.mem_map_of_mem new))
  refine ⟨front, back, injected, _, added, parts, rfl, rfl, imported, fun again thinned => ?_⟩
  apply addImports_of_nothing_missing
  rw [missingImports, List.filter_eq_nil_iff]
  intro name member
  simpa using imported name (thinned.subset member)

/-- A file that imports a package, and a module under another name. -/
def scatteredImports : Text :=
  "import copy.deep, typing as t\nfrom typing import dataclasses\n"

/-- The package counts for its first part, the module not for its own name. -/
theorem addImports_scatteredImports : ∃ (file : SourceFile) (front back : List Statement)
    (result : SourceFile),
    SourceFile.parse? scatteredImports = some file ∧ file.body = front ++ back ∧
      addImports ["typing", "copy", "dataclasses"] file =
        some (result, (["typing", "dataclasses"] : List Text)) ∧
      result.body = front ++ [importLine "typing", importLine "dataclasses"] ++ back ∧
      addImports ["copy", "dataclasses"] result = some (result, []) := by
  have names : ∀ name ∈ (["typing", "copy", "dataclasses"] : List Text), name.IsName := by decide
  have missing : (SourceFile.parse? scatteredImports).map (fun file =>
      missingImports ["typing", "copy", "dataclasses"] file.body) =
        some (["typing", "dataclasses"] : List Text) := by decide +kernel
  cases parsed : SourceFile.parse? scatteredImports with
  | none =>
    rw [parsed] at missing
    cases missing
  | some file =>
    rw [parsed, Option.map_some, Option.some.injEq, missingImports_eq] at missing
    rcases addImports_exact names file with
      ⟨front, back, injected, result, added, parts, same, rfl, -, again⟩
    rw [missing] at same
    subst same
    exact ⟨file, front, back, _, rfl, parts, added, rfl, again _ (by decide)⟩

end OpenRecord
