import OpenRecord.Proofs.Expansion.TypeNames
import OpenRecord.Proofs.Text.Parts

namespace OpenRecord

/-!
# Imports in front of generated code

An import statement binds names to modules.  Whether a required import is added depends on the names
alone: it is added unless some import at the top level binds its name, wherever that import stands
and whatever the name stands for there.  Added imports stand behind the prologue, and hence in front
of all generated code, since a statement of the prologue holds no class.

The main statement says what this amounts to: in front of the first statement with generated code
there is an import that binds a required module to its own name exactly if no import of the file
binds the name at all, or if the file itself has such an import there.
-/

open Source

/-! ## What imports bind -/

/-- The module that an import binds its name to.  Without a new name that is the first module of the
dotted name, and with one the last. -/
def Source.Alias.boundModule (imported : Alias) : Text :=
  match imported.renamed with
  | none => Text.before '.' imported.dotted
  | some _ => imported.dotted

/-- The names that a small statement binds by a plain import, each with its module. -/
def Source.Item.imports (item : Item) : List (Text × Text) :=
  match item.form with
  | .imports aliases => aliases.map fun imported => (imported.boundName, imported.boundModule)
  | _ => []

/-- The names that the plain imports of a statement bind, each with its module. -/
def Source.Statement.imports : Statement → List (Text × Text)
  | .simple _ items _ => items.flatMap (·.imports)
  | .definition _ _ => []
  | .compound _ => []

/-- A plain import in a statement binds a name to a module. -/
def Source.Statement.Imports (name module : Text) (statement : Statement) : Prop :=
  (name, module) ∈ statement.imports

/-- The names that plain imports bind are the first components of what they bind. -/
theorem importedNames_eq (statements : List Statement) :
    importedNames statements = (statements.flatMap (·.imports)).map Prod.fst := by
  unfold importedNames
  rw [List.map_flatMap]
  congr 1
  funext statement
  cases statement with
  | simple above items ending =>
    dsimp only
    rw [Statement.imports, List.map_flatMap]
    congr 1
    funext item
    rw [Item.imports]
    split <;> simp_all
  | definition head body => rfl
  | compound clauses => rfl

theorem mem_importedNames_iff {name : Text} {statements : List Statement} :
    name ∈ importedNames statements ↔
      ∃ statement ∈ statements, ∃ module, statement.Imports name module := by
  rw [importedNames_eq, List.mem_map]
  simp only [List.mem_flatMap, Statement.Imports]
  constructor
  · rintro ⟨⟨name, module⟩, ⟨statement, member, binds⟩, rfl⟩
    exact ⟨statement, member, module, binds⟩
  · rintro ⟨statement, member, module, binds⟩
    exact ⟨(name, module), ⟨statement, member, binds⟩, rfl⟩

theorem mem_requiredImports_iff {module : Text} {models : List RecordModel} :
    module ∈ requiredImports models ↔
      (module = "dataclasses" ∧ ∃ model ∈ models, model.requests .destructure = true) ∨
        ((module = "typing" ∨ module = "copy") ∧
          ∃ model ∈ models, model.requests .mutation = true) := by
  unfold requiredImports
  rw [List.mem_append, ← List.any_eq_true, ← List.any_eq_true]
  refine or_congr ?_ ?_ <;> split <;> simp_all

theorem imports_importLine {module : Text} (named : module.IsName) :
    (importLine module).imports = [(module, module)] := by
  have undotted : Text.before '.' module = module := by
    have free : '.' ∉ module := named.notMem (by decide)
    have same := Text.before_append free (.inl rfl)
    rwa [List.append_nil] at same
  have bound : (importLine module).imports =
      [(Text.before '.' module, Text.before '.' module)] := by rfl
  rw [bound, undotted]

theorem imports_of_importStatement? {models : List RecordModel} {module : Text}
    {statement : Statement} (required : module ∈ requiredImports models)
    (read : importStatement? module = some statement) :
    statement.imports = [(module, module)] := by
  have named := isName_of_required required
  cases (parse?_import named).symm.trans read
  exact imports_importLine named

/-! ## Imports of expanded statements -/

theorem exists_of_forall₂_right {α β : Type} {related : α → β → Prop} {items : List α}
    {values : List β} (all : List.Forall₂ related items values) {value : β}
    (member : value ∈ values) : ∃ item ∈ items, related item value := by
  induction all with
  | nil => cases member
  | cons first later ih =>
    rcases List.mem_cons.1 member with rfl | inner
    · exact ⟨_, List.mem_cons_self .., first⟩
    · rcases ih inner with ⟨item, among, same⟩
      exact ⟨item, List.mem_cons_of_mem _ among, same⟩

/-- Statements of which the first is a definition, as all of them are. -/
def AreDefinitions (statements : List Statement) : Prop :=
  ∃ head suite types, statements = .definition head suite :: types ∧
    ∀ type ∈ types, ∃ head suite, type = .definition head suite

/-- What a request leaves in place of its class consists of definitions. -/
theorem Request.definitions_of_replacement {request : Request} {body : Suite}
    {written : List Statement} (accepted : request.around.settings.Accepted)
    (identifier : Text.isIdentifier request.head.role.name = true)
    (replaced : request.replacement body = some written) : AreDefinitions written := by
  unfold replacement at replaced
  cases verdict : request.verdict with
  | error diagnostic =>
    rw [verdict] at replaced
    cases replaced
    exact ⟨_, _, [], rfl, nofun⟩
  | ok found =>
    rcases found with ⟨model, artifacts⟩
    rw [verdict] at replaced
    rcases verdict_eq_ok_iff.1 verdict with ⟨shape, role, extracted, -, generated⟩
    rcases generate_eq_ok generated with ⟨rfl, -, -⟩
    rcases spliceClass_eq_some replaced with ⟨methods, types, -, beside, rfl⟩
    have typeName : model.typeName = request.head.role.name := by
      rw [(extractClass_eq_ok extracted).1, role]
      rfl
    have blank : ∀ x ∈ request.site.margin, Text.isIndent x = true := by
      intro x member
      rw [List.eq_of_mem_replicate member]
      decide
    refine ⟨_, _, types, rfl, fun type member => ?_⟩
    rcases exists_of_forall₂_right beside member with ⟨artifact, among, becomes⟩
    rcases definition_of_becomesAt accepted (typeName ▸ identifier) (List.mem_filter.1 among).1
      blank becomes with ⟨head, suite, same, -⟩
    exact ⟨head, suite, same⟩

theorem definitions_of_walk {around : Surroundings} {head : Source.Definition} {body : Suite}
    {written : List Statement} (accepted : around.settings.Accepted)
    (identifier : Text.isIdentifier head.role.name = true)
    (walked : ((Statement.definition head body).walk around).result = some written) :
    AreDefinitions written := by
  rw [Statement.walk] at walked
  cases result : (body.walk (around.enter head.role)).result with
  | none =>
    unfold leaveDefinition at walked
    rw [result] at walked
    cases walked
  | some expanded =>
    cases annotated : head.annotated with
    | false =>
      rw [leaveDefinition_of_plain annotated result] at walked
      cases walked
      exact ⟨_, _, [], rfl, nofun⟩
    | true =>
      rw [leaveDefinition_of_annotated annotated result] at walked
      exact Request.definitions_of_replacement accepted identifier walked

theorem imports_of_walk {around : Surroundings} {statement : Statement} {written : List Statement}
    (accepted : around.settings.Accepted) (identifiers : statement.Obeys identifierLaw)
    (walked : (statement.walk around).result = some written) :
    written.flatMap (·.imports) = statement.imports := by
  cases statement with
  | simple above items ending =>
    cases walked
    exact List.append_nil _
  | compound clauses =>
    rcases Option.map_eq_some_iff.1 walked with ⟨expanded, -, rfl⟩
    rfl
  | definition head body =>
    rcases definitions_of_walk accepted identifiers.1 walked with ⟨own, suite, types, rfl, others⟩
    rw [Statement.imports, List.flatMap_eq_nil_iff]
    refine List.forall_mem_cons.2 ⟨rfl, fun type member => ?_⟩
    rcases others type member with ⟨head, suite, rfl⟩
    rfl

theorem imports_of_walkStatements {around : Surroundings} {statements written : List Statement}
    (accepted : around.settings.Accepted) (identifiers : StatementsObey identifierLaw statements)
    (walked : (walkStatements around statements).result = some written) :
    written.flatMap (·.imports) = statements.flatMap (·.imports) := by
  induction statements generalizing written with
  | nil =>
    cases walked
    rfl
  | cons first later ih =>
    rcases Visit.andThen_eq_some walked with ⟨front, back, expanded, rest, rfl⟩
    rw [List.flatMap_append, List.flatMap_cons, imports_of_walk accepted identifiers.1 expanded,
      ih identifiers.2 rest]

/-! ## The first statement with a request -/

theorem exists_first_request {around : Surroundings} {statements : List Statement}
    (some_there : requestsInStatements around statements ≠ []) :
    ∃ quiet first later, statements = quiet ++ first :: later ∧
      requestsInStatements around quiet = [] ∧ first.requests around ≠ [] := by
  induction statements with
  | nil => exact absurd rfl some_there
  | cons statement others ih =>
    by_cases silent : statement.requests around = []
    · rw [requestsInStatements, silent, List.nil_append] at some_there
      rcases ih some_there with ⟨quiet, first, later, rfl, before, asks⟩
      refine ⟨statement :: quiet, first, later, rfl, ?_, asks⟩
      rw [requestsInStatements, silent, before]
      rfl
    · exact ⟨[], statement, others, rfl, rfl, silent⟩

/-- What stands in front of the first statement with a request is kept, and what becomes of that
statement follows directly. -/
theorem walkStatements_of_quiet {around : Surroundings} {quiet later body : List Statement}
    {first : Statement} (silent : requestsInStatements around quiet = [])
    (walked : (walkStatements around (quiet ++ first :: later)).result = some body) :
    ∃ written after, body = quiet ++ (written ++ after) ∧
      (first.walk around).result = some written := by
  induction quiet generalizing body with
  | nil =>
    rcases Visit.andThen_eq_some walked with ⟨written, after, expanded, -, rfl⟩
    exact ⟨written, after, rfl, expanded⟩
  | cons statement others ih =>
    rw [requestsInStatements, List.append_eq_nil_iff] at silent
    rcases Visit.andThen_eq_some walked with ⟨front, back, kept, rest, rfl⟩
    rw [statement.walk_of_no_request silent.1] at kept
    cases kept
    rcases ih silent.2 rest with ⟨written, after, rfl, expanded⟩
    exact ⟨written, after, rfl, expanded⟩

theorem not_prologue_of_walk {around : Surroundings} {statement : Statement}
    {written : List Statement} (accepted : around.settings.Accepted)
    (identifiers : statement.Obeys identifierLaw) (asks : statement.requests around ≠ [])
    (walked : (statement.walk around).result = some written) :
    ∃ head tail, written = head :: tail ∧ isDocumentation head = false ∧
      isFutureImport head = false := by
  cases statement with
  | simple above items ending => exact absurd rfl asks
  | compound clauses =>
    rcases Option.map_eq_some_iff.1 walked with ⟨expanded, -, rfl⟩
    exact ⟨_, [], rfl, rfl, rfl⟩
  | definition head body =>
    rcases definitions_of_walk accepted identifiers.1 walked with ⟨own, suite, types, rfl, -⟩
    exact ⟨_, types, rfl, rfl, rfl⟩

/-- Statements in front of one that belongs to no prologue hold the whole prologue. -/
theorem splitPrologue_of_not_prologue (quiet later : List Statement) {head : Statement}
    (documentation : isDocumentation head = false) (future : isFutureImport head = false) :
    ∃ front back, quiet = front ++ back ∧
      splitPrologue (quiet ++ head :: later) = (front, back ++ head :: later) := by
  cases quiet with
  | nil => exact ⟨[], [], rfl, by simp [splitPrologue, documentation, future]⟩
  | cons first others =>
    rw [List.cons_append, splitPrologue]
    split
    case isTrue =>
      refine ⟨first :: others.takeWhile isFutureImport, others.dropWhile isFutureImport, ?_, ?_⟩
      · rw [List.cons_append, List.takeWhile_append_dropWhile]
      · rw [takeWhile_append_of_stop others future, dropWhile_append_of_stop others future]
    case isFalse => exact ⟨[], first :: others, rfl, rfl⟩

/-! ## Where imports are added -/

theorem withImports_behind_prologue {settings : Settings} {models : List RecordModel}
    {file finished : SourceFile} {names : List Text}
    (result : withImports settings models file = some (finished, names)) :
    ∃ added, List.Forall₂ (fun name statement => importStatement? name = some statement)
        (importsFor settings models file.body) added ∧
      finished = { file with
        body := (splitPrologue file.body).1 ++ added ++ (splitPrologue file.body).2 } := by
  have whole := splitPrologue_append file.body
  unfold withImports at result
  unfold importsFor
  split at result
  · cases result
    refine ⟨[], ?_, ?_⟩
    · rw [if_pos ‹_›]
      exact .nil
    · rw [List.append_nil, whole]
  case isFalse wanted =>
    rw [if_neg wanted]
    unfold addImports at result
    rcases Option.bind_eq_some_iff.1 result with ⟨added, mapped, rest⟩
    have imports := forall₂_of_mapM_eq_some mapped
    split at rest
    case isTrue nothing =>
      cases rest
      rw [List.isEmpty_iff.1 nothing]
      exact ⟨[], .nil, by rw [List.append_nil, whole]⟩
    case isFalse =>
      cases rest
      exact ⟨added, imports, rfl⟩

/-- A required module is imported by an added statement exactly if no import of the statements binds
its name. -/
theorem exists_added_import_iff {settings : Settings} {models : List RecordModel}
    {statements added : List Statement} {module : Text}
    (wanted : settings.injectImports = true) (required : module ∈ requiredImports models)
    (imports : List.Forall₂ (fun name statement => importStatement? name = some statement)
      (importsFor settings models statements) added) :
    (∃ statement ∈ added, statement.Imports module module) ↔ module ∉ importedNames statements := by
  have nonempty : models ≠ [] := by
    rintro rfl
    cases required
  have asked : importsFor settings models statements =
      missingImports (requiredImports models) statements := by
    simp [importsFor, wanted, nonempty]
  rw [asked] at imports
  constructor
  · rintro ⟨statement, member, binds⟩
    rcases exists_of_forall₂_right imports member with ⟨name, missing, read⟩
    rcases List.mem_filter.1 missing with ⟨needed, absent⟩
    rw [Statement.Imports, imports_of_importStatement? needed read, List.mem_singleton] at binds
    cases binds
    simpa using absent
  · intro absent
    have missing : module ∈ missingImports (requiredImports models) statements :=
      List.mem_filter.2 ⟨required, by simpa using absent⟩
    rcases exists_of_forall₂_right imports.flip missing with ⟨statement, member, read⟩
    refine ⟨statement, member, ?_⟩
    rw [Statement.Imports, imports_of_importStatement? required read]
    exact List.mem_singleton_self _

/-- The modules that the code generated for some models refers to by their names. -/
inductive RefersTo (models : List RecordModel) : Text → Prop
  | dataclasses {model : RecordModel} :
    model ∈ models → model.requests .destructure = true → RefersTo models "dataclasses"
  | typing {model : RecordModel} :
    model ∈ models → model.requests .mutation = true → RefersTo models "typing"
  | copy {model : RecordModel} :
    model ∈ models → model.requests .mutation = true → RefersTo models "copy"

/-- If expansion with added imports succeeds, the first statement with a request is kept behind the
statements in front of it and the added imports.  In front of what it becomes stands an import that
binds a required module to its own name exactly if no import at the top level binds the name to
anything, or one in front of the statement binds it to the module already. -/
theorem expand_importsBeforeUse_iff {values : SettingValues} {settings : Settings} {code : Text}
    {filename : Option Text} {file : SourceFile} {expansion : Expansion} {module : Text}
    (accepted : Settings.check values = .ok settings)
    (parsed : SourceFile.parse? code = some file)
    (returned : expand settings code filename = .ok expansion)
    (succeeded : expansion.success = true) (wanted : settings.injectImports = true)
    (required : RefersTo expansion.models module) :
    ∃ front back first later added written after,
      file.body = front ++ back ++ first :: later ∧
        requestsInStatements (topOfFile settings filename file) (front ++ back) = [] ∧
        first.requests (topOfFile settings filename file) ≠ [] ∧
        (first.walk (topOfFile settings filename file)).result = some written ∧
        expansion.code = { file with body := front ++ added ++ back ++ written ++ after }.print ∧
        ((∃ statement ∈ front ++ added ++ back, statement.Imports module module) ↔
          (¬ ∃ statement ∈ file.body, ∃ other, statement.Imports module other) ∨
            ∃ statement ∈ front ++ back, statement.Imports module module) := by
  have fine := Settings.accepted_of_check accepted
  have identifiers := identifiers_of_parse? parsed
  have needed : module ∈ requiredImports expansion.models := by
    rw [mem_requiredImports_iff]
    cases required with
    | dataclasses member asks => exact .inl ⟨rfl, _, member, asks⟩
    | typing member asks => exact .inr ⟨.inl rfl, _, member, asks⟩
    | copy member asks => exact .inr ⟨.inr rfl, _, member, asks⟩
  rcases expand_of_success parsed returned succeeded with
    ⟨-, body, found, finished, names, walked, verdicts, imported, rfl⟩
  -- a model comes from a request, so that there is a first statement with one
  have asks : file.requests settings filename ≠ [] := by
    intro silent
    rw [silent, List.map_nil] at verdicts
    rw [List.map_eq_nil_iff.1 verdicts.symm] at needed
    cases needed
  rcases exists_first_request asks with ⟨quiet, first, later, parts, silent, requests⟩
  have lawful : first.Obeys identifierLaw :=
    statementsObey_iff.1 identifiers first (by simp [parts])
  have inParts := walked
  rw [SourceFile.visit, parts] at inParts
  rcases walkStatements_of_quiet silent inParts with ⟨written, after, rfl, expanded⟩
  rcases not_prologue_of_walk fine lawful requests expanded with
    ⟨head, tail, rfl, documentation, future⟩
  rcases splitPrologue_of_not_prologue quiet (tail ++ after) documentation future with
    ⟨front, back, rfl, split⟩
  rcases withImports_behind_prologue imported with ⟨added, imports, rfl⟩
  have kept := imports_of_walkStatements fine identifiers walked
  have names := exists_added_import_iff wanted needed imports
  rw [importedNames_eq, kept, ← importedNames_eq, mem_importedNames_iff] at names
  refine ⟨front, back, first, later, added, _, after, parts, silent, requests, expanded, ?_, ?_⟩
  · dsimp only
    rw [show front ++ back ++ (head :: tail ++ after) =
      front ++ back ++ head :: (tail ++ after) by rfl, split]
    simp only [List.append_assoc, List.cons_append]
  · rw [← names]
    simp only [List.mem_append]
    constructor
    · rintro ⟨statement, (former | new) | latter, binds⟩
      · exact .inr ⟨statement, .inl former, binds⟩
      · exact .inl ⟨statement, new, binds⟩
      · exact .inr ⟨statement, .inr latter, binds⟩
    · rintro (⟨statement, new, binds⟩ | ⟨statement, former | latter, binds⟩)
      · exact ⟨statement, .inl (.inr new), binds⟩
      · exact ⟨statement, .inl (.inl former), binds⟩
      · exact ⟨statement, .inr latter, binds⟩

/-- A class with an import of the required module behind it. -/
def lateImport : Text :=
  "@destructure\nclass P: x: A\nimport dataclasses\n"

/-- Expansion of the example succeeds, and nothing in front of the class imports the module. -/
theorem expand_lateImport_importsBeforeUse : ∃ (file : SourceFile) (expansion : Expansion)
    (before written after : List Statement),
    SourceFile.parse? lateImport = some file ∧
      expand .default lateImport none = .ok expansion ∧ expansion.success = true ∧
      expansion.code = { file with body := before ++ written ++ after }.print ∧
      ¬ ∃ statement ∈ before, statement.Imports "dataclasses" "dataclasses" := by
  have shape : ((SourceFile.parse? lateImport).any fun file =>
      (file.body.head?.any fun statement =>
        !(statement.requests (topOfFile .default none file)).isEmpty) &&
        (importedNames file.body).contains "dataclasses") = true := by decide +kernel
  have expands : (match expand .default lateImport none with
      | .ok expansion => expansion.success && expansion.models.any (·.requests .destructure)
      | .error _ => false) = true := by decide +kernel
  cases parsed : SourceFile.parse? lateImport with
  | none =>
    rw [parsed] at shape
    cases shape
  | some file =>
    rw [parsed, Option.any_some, Bool.and_eq_true] at shape
    rcases shape with ⟨opens, contained⟩
    cases returned : expand .default lateImport none with
    | error fault =>
      rw [returned] at expands
      cases expands
    | ok expansion =>
      rw [returned] at expands
      rcases Bool.and_eq_true_iff.1 expands with ⟨succeeded, asks⟩
      rcases List.any_eq_true.1 asks with ⟨model, among, requests⟩
      rcases expand_importsBeforeUse_iff Settings.check_empty parsed returned succeeded rfl
        (.dataclasses among requests) with
        ⟨front, back, first, later, added, written, after, parts, silent, -, -, printed, iff⟩
      refine ⟨file, expansion, _, written, after, rfl, rfl, succeeded, printed, ?_⟩
      -- the first statement of the file makes a request, so that none stands in front of it
      have nothing : front ++ back = [] := by
        cases quiet : front ++ back with
        | nil => rfl
        | cons statement others =>
          rw [quiet] at parts silent
          rw [requestsInStatements, List.append_eq_nil_iff] at silent
          have front : file.body.head? = some statement := by rw [parts]; rfl
          rw [front, Option.any_some, silent.1] at opens
          cases opens
      rw [iff, nothing]
      rintro (absent | ⟨statement, member, -⟩)
      · exact absent (mem_importedNames_iff.1 (List.contains_iff_mem.1 contained))
      · cases member

end OpenRecord
