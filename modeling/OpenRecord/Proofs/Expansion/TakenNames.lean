import OpenRecord.Proofs.Expansion.Reporting

namespace OpenRecord

/-!
# Type names that are taken in a file

The generated types of a class that stands in no function are checked against the names of the
file.  What counts as a name of the file is spelled out here as a relation on statements: only a
statement of the top-level list binds a name, by defining, assigning, declaring or importing it, and
an assignment binds a name only if the name alone is one of its targets.

The main statement says that a class which has nothing else against it is refused for a taken type
name exactly if some statement binds the name in this sense.  Nothing is said for the other ways in
which a file can come to have a name, by loops, patterns, unpacking, or statements inside the blocks
of others: such a name is not seen, and the generated type takes its place.
-/

open Source

/-! ## Statements that bind a name -/

/-- A small statement binds a name in one of the ways that are looked for. -/
inductive Source.Item.Binds (name : Text) : Item → Prop
  | assigned {item : Item} {targets : List Expression} :
    item.form = .assignment targets → .name name ∈ targets → Source.Item.Binds name item
  | declared {item : Item} {type : Expression} {typeTokens : List Token} :
    item.form = .declaration (.name name) type typeTokens → Source.Item.Binds name item
  | imported {item : Item} {aliases : List Alias} {imported : Alias} :
    item.form = .imports aliases → imported ∈ aliases → imported.boundName = name →
    Source.Item.Binds name item
  | importedFrom {item : Item} {origin : Option Text} {aliases : List Alias} {imported : Alias} :
    item.form = .importsFrom origin (some aliases) → imported ∈ aliases →
    imported.boundName = name → Source.Item.Binds name item

/-- A statement binds a name without regard to any blocks in it. -/
inductive Source.Statement.BindsDirectly (name : Text) : Statement → Prop
  | simple {above : List Line} {items : List Item} {ending : LineEnd} {item : Item} :
    item ∈ items → item.Binds name →
    Source.Statement.BindsDirectly name (.simple above items ending)
  | definition {head : Source.Definition} {body : Suite} :
    head.role.name = name → Source.Statement.BindsDirectly name (.definition head body)

/-- The collected names of a small statement are those that it binds. -/
theorem Source.Item.mem_boundNames_iff {name : Text} {item : Item} :
    name ∈ item.boundNames ↔ item.Binds name := by
  constructor
  · intro member
    unfold boundNames at member
    split at member
    case h_1 targets form =>
      rcases List.mem_filterMap.1 member with ⟨target, among, same⟩
      split at same <;> cases same
      exact .assigned form among
    case h_2 target type typeTokens form =>
      cases List.mem_singleton.1 member
      exact .declared form
    case h_3 aliases form =>
      rcases List.mem_map.1 member with ⟨imported, among, same⟩
      exact .imported form among same
    case h_4 origin aliases form =>
      rcases List.mem_map.1 member with ⟨imported, among, same⟩
      exact .importedFrom form among same
    case h_5 => cases member
  · intro binds
    unfold boundNames
    cases binds with
    | assigned form among =>
      rw [form]
      exact List.mem_filterMap.2 ⟨_, among, rfl⟩
    | declared form =>
      rw [form]
      exact List.mem_singleton_self name
    | imported form among same =>
      rw [form]
      exact List.mem_map.2 ⟨_, among, same⟩
    | importedFrom form among same =>
      rw [form]
      exact List.mem_map.2 ⟨_, among, same⟩

theorem Source.Statement.mem_boundNames_iff {name : Text} {statement : Statement} :
    name ∈ statement.boundNames ↔ statement.BindsDirectly name := by
  cases statement with
  | simple above items ending =>
    rw [boundNames, List.mem_flatMap]
    constructor
    · rintro ⟨item, among, bound⟩
      exact .simple among (Item.mem_boundNames_iff.1 bound)
    · rintro ⟨among, binds⟩
      exact ⟨_, among, Item.mem_boundNames_iff.2 binds⟩
  | definition head body =>
    rw [boundNames, List.mem_singleton]
    exact ⟨fun same => .definition same.symm, fun binds => by cases binds; symm; assumption⟩
  | compound clauses =>
    rw [boundNames]
    exact ⟨fun member => (List.not_mem_nil member).elim, fun binds => by cases binds⟩

theorem mem_boundNames_iff {name : Text} {statements : List Statement} :
    name ∈ boundNames statements ↔ ∃ statement ∈ statements, statement.BindsDirectly name := by
  simp only [boundNames, List.mem_flatMap, Statement.mem_boundNames_iff]

/-! ## Generation in a scope -/

theorem RecordModel.firstClash_scope (model : RecordModel) (settings : Settings)
    (scope : List Text) :
    model.firstClash settings (some scope) =
      (model.firstClash settings (some [])).or
        (((model.generatedTypeNames settings).find? scope.contains).map .typeNameTaken) := by
  have nothing : (model.generatedTypeNames settings).find? ([] : List Text).contains = none := by
    simp
  simp only [firstClash, Option.getD_some, nothing, Option.map_none, Option.or_none,
    Option.or_assoc]

/-- What is generated from a model does not depend on the scope, except that a type name which is
taken there stops generation. -/
theorem generate_scope {model : RecordModel} {settings : Settings} {artifacts : List Artifact}
    (generated : generate model settings (some []) = .ok artifacts) (scope : List Text) :
    generate model settings (some scope) =
      match (model.generatedTypeNames settings).find? scope.contains with
      | some name => .error ⟨.typeNameTaken name, some model.typeName, model.location⟩
      | none => .ok artifacts := by
  have free := (generate_eq_ok generated).2.1
  have clash := model.firstClash_scope settings scope
  rw [free, Option.none_or] at clash
  unfold generate RecordModel.checkNames at generated ⊢
  rw [free] at generated
  rw [clash]
  split at generated
  · cases generated
  · rw [if_neg ‹_›]
    cases found : (model.generatedTypeNames settings).find? scope.contains with
    | some name => rfl
    | none => exact generated

namespace Request

/-- The same request where no names are bound around it. -/
def inEmptyScope (request : Request) : Request :=
  { request with around := { request.around with fileNames := [], localNames := [] } }

/-- The diagnostic for a generated type whose name is taken. -/
def collision (request : Request) (name : Text) : Diagnostic :=
  ⟨.typeNameTaken name, some request.head.role.name, some request.location⟩

/-- A class that is accepted where no names are bound passes every stage but the last at its own
place as well. -/
theorem stages_of_inEmptyScope {request : Request} {model : RecordModel}
    {artifacts : List Artifact} (accepted : request.inEmptyScope.verdict = .ok (model, artifacts)) :
    ∃ shape, request.head.role = .classDefinition shape ∧
      extractClass request.head shape request.body (some request.location) = .ok model ∧
      request.around.scopes.head? ≠ some .classScope ∧
      generate model request.around.settings (some []) = .ok artifacts := by
  rcases verdict_eq_ok_iff.1 accepted with ⟨shape, role, extracted, outside, generated⟩
  have empty : request.inEmptyScope.around.scopeNames = [] := by
    unfold Surroundings.scopeNames
    split <;> rfl
  rw [empty] at generated
  exact ⟨shape, role, extracted, outside, generated⟩

/-- A class that has nothing else against it is refused for the first of its type names that is
taken in its scope, and accepted if there is none. -/
theorem verdict_of_inEmptyScope {request : Request} {model : RecordModel}
    {artifacts : List Artifact} (accepted : request.inEmptyScope.verdict = .ok (model, artifacts)) :
    request.verdict =
      match (model.generatedTypeNames request.around.settings).find?
          request.around.scopeNames.contains with
      | some name => .error (request.collision name)
      | none => .ok (model, artifacts) := by
  rcases stages_of_inEmptyScope accepted with ⟨shape, role, extracted, outside, generated⟩
  have typeName : model.typeName = request.head.role.name := by
    rw [(extractClass_eq_ok extracted).1, role]
    rfl
  rw [verdict_of_class role, extracted]
  dsimp only
  rw [if_neg outside, generate_scope generated, typeName, extractClass_location extracted]
  cases (model.generatedTypeNames request.around.settings).find?
    request.around.scopeNames.contains <;> rfl

/-- A place in no function at which a class can be accepted is in no definition at all. -/
theorem scopes_of_outside {request : Request} {model : RecordModel} {artifacts : List Artifact}
    (accepted : request.inEmptyScope.verdict = .ok (model, artifacts))
    (outside : Scope.functionScope ∉ request.around.scopes) : request.around.scopes = [] := by
  rcases stages_of_inEmptyScope accepted with ⟨-, -, -, notInClass, -⟩
  cases scopes : request.around.scopes with
  | nil => rfl
  | cons innermost others =>
    rw [scopes] at outside notInClass
    cases innermost with
    | classScope => exact absurd rfl notInClass
    | functionScope => exact absurd (List.mem_cons_self ..) outside

end Request

/-! ## Refusals for taken names -/

/-- A class in no function that has nothing else against it is refused for the name of one of its
generated types exactly if a statement of the top-level list binds such a name directly.  Expansion
then reports the refusal at the class and does not succeed; otherwise the class is accepted. -/
theorem expand_collides_iff {settings : Settings} {code : Text} {filename : Option Text}
    {file : SourceFile} {request : Request} {model : RecordModel} {artifacts : List Artifact}
    (parsed : SourceFile.parse? code = some file)
    (member : request ∈ file.requests settings filename)
    (outside : Scope.functionScope ∉ request.around.scopes)
    (accepted : request.inEmptyScope.verdict = .ok (model, artifacts))
    (fit : ∀ other ∈ file.requests settings filename, other.Fits) :
    ∃ expansion, expand settings code filename = .ok expansion ∧
      ((∃ name ∈ model.generatedTypeNames settings,
          ∃ statement ∈ file.body, statement.BindsDirectly name) ↔
        ∃ name ∈ model.generatedTypeNames settings,
          request.refusal = some (request.collision name) ∧ expansion.success = false ∧
            (request.collision name).format ∈ expansion.errors) ∧
      ((¬ ∃ name ∈ model.generatedTypeNames settings,
          ∃ statement ∈ file.body, statement.BindsDirectly name) →
        request.verdict = .ok (model, artifacts)) := by
  have same := SourceFile.sameFile_of_mem member
  have scope : request.around.scopeNames = boundNames file.body := by
    unfold Surroundings.scopeNames
    rw [Request.scopes_of_outside accepted outside]
    exact same.fileNames
  have verdict := Request.verdict_of_inEmptyScope accepted
  rw [scope, show request.around.settings = settings from same.settings] at verdict
  rcases exists_expand_of_fit parsed fit with ⟨expansion, returned⟩
  refine ⟨expansion, returned, ?_⟩
  simp only [← mem_boundNames_iff]
  cases found : (model.generatedTypeNames settings).find? (boundNames file.body).contains with
  | none =>
    rw [found] at verdict
    have free : ¬ ∃ name ∈ model.generatedTypeNames settings, name ∈ boundNames file.body := by
      simpa using found
    refine ⟨iff_of_false free ?_, fun _ => verdict⟩
    rintro ⟨name, -, refused, -⟩
    simp [Request.refusal, verdict] at refused
  | some name =>
    rw [found] at verdict
    have refused := Request.refusal_eq_some_iff.2 verdict
    have generated := List.mem_of_find?_eq_some found
    have taken : name ∈ boundNames file.body := by simpa using List.find?_some found
    rcases reported_of_refusal parsed returned member refused with ⟨failed, -, reported⟩
    exact ⟨iff_of_true ⟨name, generated, taken⟩ ⟨name, generated, refused, failed, reported⟩,
      fun free => absurd ⟨name, generated, taken⟩ free⟩

/-- A class behind an assignment to the name of its companion. -/
def takenName : Text :=
  "DestructP = y\n@destructure\nclass P: x: A\n"

/-- The class of the example is refused, and its refusal is reported. -/
theorem expand_takenName_collides : ∃ file request model artifacts expansion,
    SourceFile.parse? takenName = some file ∧ request ∈ file.requests .default none ∧
      request.inEmptyScope.verdict = .ok (model, artifacts) ∧
      expand .default takenName none = .ok expansion ∧ expansion.success = false ∧
      ∃ name ∈ model.generatedTypeNames .default,
        request.refusal = some (request.collision name) ∧
          (request.collision name).format ∈ expansion.errors := by
  have taken : ((SourceFile.parse? takenName).any fun file =>
      (file.visit .default none).result.isSome &&
        (file.requests .default none).any fun request =>
          !request.around.scopes.contains .functionScope &&
            match request.inEmptyScope.verdict with
            | .ok (model, _) =>
              (model.generatedTypeNames .default).any (boundNames file.body).contains
            | .error _ => false) = true := by decide +kernel
  cases parsed : SourceFile.parse? takenName with
  | none =>
    rw [parsed] at taken
    cases taken
  | some file =>
    rw [parsed, Option.any_some, Bool.and_eq_true, List.any_eq_true] at taken
    rcases taken with ⟨ended, request, member, checked⟩
    rw [Bool.and_eq_true] at checked
    rcases checked with ⟨noFunction, bound⟩
    have outside : Scope.functionScope ∉ request.around.scopes := by simpa using noFunction
    cases accepted : request.inEmptyScope.verdict with
    | error diagnostic =>
      rw [accepted] at bound
      cases bound
    | ok result =>
      rcases result with ⟨model, artifacts⟩
      rw [accepted, List.any_eq_true] at bound
      rcases bound with ⟨name, generated, contained⟩
      rcases mem_boundNames_iff.1 (List.contains_iff_mem.1 contained) with
        ⟨statement, among, binds⟩
      rcases expand_collides_iff parsed member outside accepted
        ((file.visit_settles .default none).ends.1 ended) with ⟨expansion, returned, iff, -⟩
      rcases iff.1 ⟨name, generated, statement, among, binds⟩ with
        ⟨name, generated, refused, failed, reported⟩
      exact ⟨file, request, model, artifacts, expansion, rfl, member, accepted, returned, failed,
        name, generated, refused, reported⟩

/-- A name that is bound by unpacking is not seen. -/
example : (match expand .default "DestructP, z = y\n@destructure\nclass P: x: A\n" none with
    | .ok expansion => expansion.success
    | .error _ => false) = true := by decide +kernel

end OpenRecord
