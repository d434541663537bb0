import OpenRecord.Proofs.Expansion.Completeness
import OpenRecord.Proofs.Generation.EmittedNames

namespace OpenRecord

/-!
# Records in an expanded tree

An expanded class is still the definition of a class, and extraction can be applied to it where it
stands.  It gives the model that the class was expanded with, except that nothing is requested any
more and that the new methods are members.  These members are what keeps the class from being expanded
again: whichever of its former capabilities were requested anew, one of their methods is there already.

The two trees are followed side by side, so that classes are found at every depth, around whatever
became of the classes inside their methods.  Only the trees are spoken of.  That the printed text is
read as the tree that was printed is not claimed.
-/

open Source

/-! ## Models of expanded classes -/

/-- The names of the methods among some artifacts, in the order of emission. -/
def methodNamesOf (artifacts : List Artifact) : List Text :=
  (artifacts.filter (·.placement = .inClass)).map (·.name)

namespace RecordModel

/-- The model with the methods of some artifacts as further members, without any request. -/
def expandedWith (model : RecordModel) (artifacts : List Artifact) (location : Option Location) :
    RecordModel :=
  { model with
    capabilities := .empty
    memberNames := model.memberNames ++ methodNamesOf artifacts
    location }

/-- Whichever of some former capabilities are requested for the model, with the companion among them
if mutation is, its names keep code from being generated, for all settings and scopes. -/
def GuardedAgainst (model : RecordModel) (former : Capabilities) : Prop :=
  ∀ capabilities : Capabilities, (∃ some, capabilities.contains some = true) →
    (∀ each, capabilities.contains each = true → former.contains each = true) →
    (capabilities.contains .mutation = true → capabilities.contains .destructure = true) →
    ∀ settings scope, ∃ diagnostic,
      generate { model with capabilities } settings scope = .error diagnostic ∧
        diagnostic.cause.kind = .namingCollision

/-- A member with the name of a generated method keeps code from being generated. -/
theorem generate_of_replaced_member (model : RecordModel) (settings : Settings)
    (scope : Option (List Text)) {name : Text}
    (together : model.requests .mutation = true → model.requests .destructure = true)
    (member : name ∈ model.memberNames) (generated : name ∈ model.generatedMethodNames) :
    ∃ diagnostic, generate model settings scope = .error diagnostic ∧
      diagnostic.cause.kind = .namingCollision := by
  have accompanied : ¬ (model.requests .mutation && !model.requests .destructure) = true := by
    simpa using together
  unfold generate checkNames
  rw [if_neg accompanied]
  cases clash : model.firstClash settings scope with
  | some cause => exact ⟨_, rfl, kind_of_firstClash clash⟩
  | none => exact absurd generated ((firstClash_eq_none_iff.1 clash).members name member)

theorem exists_methodName (capability : Capability) : ∃ name, name ∈ capability.methodNames := by
  cases capability <;> exact ⟨_, List.mem_cons_self ..⟩

theorem guardedAgainst_expandedWith (model : RecordModel) (settings : Settings)
    (location : Option Location) :
    (model.expandedWith (synthesize model settings) location).GuardedAgainst
      model.capabilities := by
  intro capabilities nonempty former together settings' scope
  rcases nonempty with ⟨capability, requested⟩
  rcases exists_methodName capability with ⟨name, method⟩
  apply generate_of_replaced_member
    { model.expandedWith (synthesize model settings) location with capabilities } settings' scope
    together
  case member =>
    apply List.mem_append_right
    rw [methodNamesOf, map_name_inClass]
    exact mem_generatedMethodNames.2 ⟨capability, former capability requested, method⟩
  case generated =>
    exact mem_generatedMethodNames.2 ⟨capability, requested, method⟩

end RecordModel

/-- A statement is what became of the class of an accepted request: the model extracted from it is the
one of the request with the methods of its artifacts, and it cannot be expanded with the same
capabilities again. -/
def Request.KeptBy (request : Request) (statement : Statement) : Prop :=
  ∃ model artifacts, request.verdict = .ok (model, artifacts) ∧
    ∀ location, extract statement location = .ok (model.expandedWith artifacts location) ∧
      (model.expandedWith artifacts location).GuardedAgainst model.capabilities

/-! ## Entries that are put behind others -/

theorem fieldsFrom_append_members (order : Nat) (entries : List BodyEntry) (names : List Text) :
    fieldsFrom order (entries ++ names.map .member) = fieldsFrom order entries := by
  have nothing : (names.map BodyEntry.member).filterMap (·.declaration?) = [] := by
    simp [BodyEntry.declaration?]
  rw [fieldsFrom_eq_mapIdx, fieldsFrom_eq_mapIdx, List.filterMap_append, nothing, List.append_nil]

theorem membersOf_append_members (entries : List BodyEntry) (names : List Text) :
    membersOf (entries ++ names.map .member) = membersOf entries ++ names := by
  have all : (names.map BodyEntry.member).filterMap (·.member?) = names := by
    simp [List.filterMap_map, BodyEntry.member?]
  rw [membersOf_eq_filterMap, membersOf_eq_filterMap, List.filterMap_append, all]

/-- Members at the end of a class body are further members of its model, and nothing else of the model
comes from the end of the body. -/
theorem extractClass_of_entries {head : Source.Definition} {shape : ClassHead}
    {body extended : Suite} {location : Option Location} {model : RecordModel} {names : List Text}
    (extracted : extractClass head shape body location = .ok model)
    (entries : extended.entries = body.entries ++ names.map .member)
    (other : Source.Definition) (location' : Option Location) :
    extractClass other shape extended location' =
      .ok { model with
        capabilities := .ofList other.capabilities
        memberNames := model.memberNames ++ names
        location := location' } := by
  unfold extractClass at extracted ⊢
  simp only [entries, fieldsFrom_append_members, membersOf_append_members]
  cases problem : shape.bases.findSome? baseProblem with
  | some cause =>
    rw [problem] at extracted
    cases extracted
  | none =>
    rw [problem] at extracted
    dsimp only at extracted ⊢
    cases fields : fieldsFrom 0 body.entries with
    | nil =>
      rw [fields] at extracted
      cases extracted
    | cons first later =>
      rw [fields] at extracted
      cases extracted
      rfl

/-- Statements that methods become at a margin add the names of the methods to a class body. -/
theorem entries_of_becomesAt {unit margin : Text} {artifacts : List Artifact}
    {statements : List Statement}
    (become : List.Forall₂ (Artifact.BecomesAt unit margin) artifacts statements)
    (definitions : ∀ artifact ∈ artifacts, ∀ statement,
      artifact.BecomesAt unit margin statement →
        ∃ head body, statement = .definition head body ∧ head.role.name = artifact.name) :
    statements.flatMap (·.entries) = (artifacts.map (·.name)).map .member := by
  induction become with
  | nil => rfl
  | cons first later ih =>
    rw [List.forall_mem_cons] at definitions
    rcases definitions.1 _ first with ⟨head, body, rfl, named⟩
    rw [List.flatMap_cons, ih definitions.2, Statement.entries, named]
    rfl

/-! ## The body of a class that is walked over -/

/-- A statement of a class body that is walked over contributes what it did before.  A class with
artifacts would stand beside its types, but none that is accepted stands directly in a class. -/
theorem entries_of_walk {around : Surroundings} {statement : Statement} {written : List Statement}
    (inside : around.scopes.head? = some .classScope)
    (clean : ∀ request ∈ statement.requests around, request.refusal = none)
    (walked : (statement.walk around).result = some written) :
    written.flatMap (·.entries) = statement.entries := by
  cases statement with
  | simple above items ending =>
    cases walked
    exact List.flatMap_singleton ..
  | compound clauses =>
    rcases Option.map_eq_some_iff.1 walked with ⟨expanded, -, rfl⟩
    rfl
  | definition head body =>
    rw [Statement.walk] at walked
    cases result : (body.walk (around.enter head.role)).result with
    | none =>
      unfold leaveDefinition at walked
      rw [result] at walked
      cases walked
    | some expanded =>
      cases annotated : head.annotated with
      | false =>
        rw [leaveDefinition_of_plain annotated result] at walked
        cases walked
        rfl
      | true =>
        have own := clean ⟨around, head, body⟩ (by simp [Statement.requests, annotated])
        cases verdict : Request.verdict ⟨around, head, body⟩ with
        | error diagnostic =>
          rw [Request.refusal_eq_some_iff.2 verdict] at own
          cases own
        | ok found =>
          rcases Request.verdict_eq_ok_iff.1 verdict with ⟨shape, -, -, outside, -⟩
          exact absurd inside outside

theorem entries_of_walkStatements {around : Surroundings} {statements written : List Statement}
    (inside : around.scopes.head? = some .classScope)
    (clean : ∀ request ∈ requestsInStatements around statements, request.refusal = none)
    (walked : (walkStatements around statements).result = some written) :
    written.flatMap (·.entries) = statements.flatMap (·.entries) := by
  induction statements generalizing written with
  | nil =>
    cases walked
    rfl
  | cons first later ih =>
    rcases List.forall_mem_append.1 clean with ⟨cleanFirst, cleanLater⟩
    rcases Visit.andThen_eq_some walked with ⟨front, back, former, latter, rfl⟩
    rw [List.flatMap_append, List.flatMap_cons, entries_of_walk inside cleanFirst former,
      ih cleanLater latter]

theorem Source.Suite.entries_of_walk {around : Surroundings} {body expanded : Suite}
    (inside : around.scopes.head? = some .classScope)
    (clean : ∀ request ∈ body.requests around, request.refusal = none)
    (walked : (body.walk around).result = some expanded) : expanded.entries = body.entries := by
  cases body with
  | inline items ending =>
    cases walked
    rfl
  | block opening indent statements foot =>
    rcases Option.map_eq_some_iff.1 walked with ⟨written, result, rfl⟩
    have within : (around.enterBlock statements).scopes.head? = some .classScope := inside
    exact entries_of_walkStatements within clean result
  | cases opening indent clauses foot =>
    rcases Option.map_eq_some_iff.1 walked with ⟨written, -, rfl⟩
    rfl

/-! ## The class of a request -/

/-- What is known of a request in a file that is expanded with success. -/
structure Request.Regular (request : Request) : Prop where
  accepted : request.around.settings.Accepted
  identifier : Text.isIdentifier request.head.role.name = true
  blank : ∀ x ∈ request.around.unit, Text.isIndent x = true
  unrefused : request.refusal = none

/-- A class without its requests requests nothing. -/
theorem capabilities_stripped (head : Source.Definition) : head.stripped.capabilities = [] := by
  rw [Definition.capabilities, List.filterMap_eq_nil_iff]
  exact capability_of_mem_stripped

/-- An accepted request leaves its class in place, with methods at its end, as one that keeps the
record. -/
theorem Request.keptBy_of_replacement {request : Request} {expanded : Suite}
    {written : List Statement} (regular : request.Regular)
    (clean : ∀ inner ∈ request.body.requests (request.around.enter request.head.role),
      inner.refusal = none)
    (walked : (request.body.walk (request.around.enter request.head.role)).result = some expanded)
    (replaced : request.replacement expanded = some written) :
    ∃ methods extended types, written = .definition request.head.stripped extended :: types ∧
      expanded.GetsAtEnd request.around.unit methods extended ∧
      request.KeptBy (.definition request.head.stripped extended) := by
  cases verdict : request.verdict with
  | error diagnostic =>
    have refused := refusal_eq_some_iff.2 verdict
    rw [regular.unrefused] at refused
    cases refused
  | ok found =>
    rcases found with ⟨model, artifacts⟩
    rcases verdict_eq_ok_iff.1 verdict with ⟨shape, role, extracted, -, generated⟩
    rcases generate_eq_ok generated with ⟨rfl, -, -⟩
    simp only [replacement, verdict] at replaced
    rcases spliceClass_eq_some replaced with ⟨methods, types, inClass, -, rfl⟩
    have inner := request.body.expandsTo_of_walk clean walked
    have gets := getsAtEnd_of_extracted extracted inner methods
    have same := request.around.sameFile_enter request.head.role
    rw [same.unit] at gets
    have typeName : model.typeName = request.head.role.name := by
      rw [(extractClass_eq_ok extracted).1, role]
      rfl
    -- the body keeps its entries, and the methods follow them
    have inside : (request.around.enter request.head.role).scopes.head? = some .classScope := by
      rw [role]
      rfl
    have kept := request.body.entries_of_walk inside clean walked
    have added := entries_of_becomesAt inClass fun artifact member statement becomes =>
      definition_of_becomesAt regular.accepted (typeName ▸ regular.identifier)
        (List.mem_filter.1 member).1 (request.blank_margin .inClass regular.blank) becomes
    have plain : ∀ opening indent clauses foot, expanded ≠ .cases opening indent clauses foot := by
      rintro opening indent clauses foot rfl
      rcases extractClass_eq_ok extracted with ⟨-, -, -, fields, nonempty⟩
      rw [← kept] at fields
      exact nonempty fields
    have entries : (expanded.appended request.around.unit methods).entries = _ :=
      Suite.entries_appended plain
    rw [kept, added] at entries
    refine ⟨methods, _, types, rfl, gets, model, _, verdict, fun location => ⟨?_, ?_⟩⟩
    · have again := extractClass_of_entries extracted entries request.head.stripped location
      rw [capabilities_stripped] at again
      have kind : request.head.stripped.role = .classDefinition shape := role
      simp only [extract, kind]
      exact again
    · exact model.guardedAgainst_expandedWith _ location

/-! ## Two trees side by side -/

section Relation

variable (kept : Request → Statement → Prop)

mutual

/-- A statement and what stands in its place, in which each class with a request is one that keeps
what the request asks for. -/
inductive Source.Statement.StandsAs : Surroundings → Statement → List Statement → Prop
  | simple {around : Surroundings} (above : List Line) (items : List Item) (ending : LineEnd) :
    Source.Statement.StandsAs around (.simple above items ending) [.simple above items ending]
  | compound {around : Surroundings} {clauses written : List Clause} :
    ClausesStandAs around clauses written →
    Source.Statement.StandsAs around (.compound clauses) [.compound written]
  | plain {around : Surroundings} {head : Source.Definition} {body written : Suite} :
    head.annotated = false → Source.Suite.StandsAs (around.enter head.role) body written →
    Source.Statement.StandsAs around (.definition head body) [.definition head written]
  | record {around : Surroundings} {head : Source.Definition} {body written extended : Suite}
      {methods types : List Statement} :
    head.annotated = true → Source.Suite.StandsAs (around.enter head.role) body written →
    written.GetsAtEnd around.unit methods extended →
    kept ⟨around, head, body⟩ (.definition head.stripped extended) →
    Source.Statement.StandsAs around (.definition head body)
      (.definition head.stripped extended :: types)

/-- What stands behind a colon, and what stands in its place. -/
inductive Source.Suite.StandsAs : Surroundings → Suite → Suite → Prop
  | inline {around : Surroundings} (items : List Item) (ending : LineEnd) :
    Source.Suite.StandsAs around (.inline items ending) (.inline items ending)
  | block {around : Surroundings} {opening : LineEnd} {indent : Text}
      {body written : List Statement} {foot : List Line} :
    StatementsStandAs (around.enterBlock body) body written →
    Source.Suite.StandsAs around (.block opening indent body foot)
      (.block opening indent written foot)
  | cases {around : Surroundings} {opening : LineEnd} {indent : Text}
      {clauses written : List Clause} {foot : List Line} :
    ClausesStandAs around clauses written →
    Source.Suite.StandsAs around (.cases opening indent clauses foot)
      (.cases opening indent written foot)

inductive Source.Clause.StandsAs : Surroundings → Clause → Clause → Prop
  | clause {around : Surroundings} {kind : ClauseKind} {above : List Line} {tokens : List Token}
      {suite written : Suite} :
    Source.Suite.StandsAs around suite written →
    Source.Clause.StandsAs around (.clause kind above tokens suite)
      (.clause kind above tokens written)

/-- Consecutive statements and what stands in their places. -/
inductive StatementsStandAs : Surroundings → List Statement → List Statement → Prop
  | nil {around : Surroundings} : StatementsStandAs around [] []
  | cons {around : Surroundings} {first : Statement} {later front back : List Statement} :
    Source.Statement.StandsAs around first front → StatementsStandAs around later back →
    StatementsStandAs around (first :: later) (front ++ back)

/-- Consecutive clauses and what stands in their places. -/
inductive ClausesStandAs : Surroundings → List Clause → List Clause → Prop
  | nil {around : Surroundings} : ClausesStandAs around [] []
  | cons {around : Surroundings} {first written : Clause} {later others : List Clause} :
    Source.Clause.StandsAs around first written → ClausesStandAs around later others →
    ClausesStandAs around (first :: later) (written :: others)

end

end Relation

mutual

theorem Source.Statement.standsAs_of_walk {around : Surroundings} :
    ∀ {statement : Statement} {written : List Statement},
      (∀ request ∈ statement.requests around, request.Regular) →
      (statement.walk around).result = some written →
      statement.StandsAs Request.KeptBy around written
  | .simple above items ending, written, _, result => by
    cases result
    exact .simple above items ending
  | .definition head body, written, regular, result => by
    rcases List.forall_mem_append.1 regular with ⟨regularBody, regularOwn⟩
    rw [Statement.walk] at result
    cases walked : (body.walk (around.enter head.role)).result with
    | none => simp [leaveDefinition, walked] at result
    | some expanded =>
      have inner := Source.Suite.standsAs_of_walk regularBody walked
      cases annotated : head.annotated with
      | false =>
        rw [leaveDefinition_of_plain annotated walked] at result
        cases result
        exact .plain annotated inner
      | true =>
        rw [leaveDefinition_of_annotated annotated walked] at result
        rw [annotated] at regularOwn
        have own := regularOwn _ (List.mem_singleton_self _)
        rcases Request.keptBy_of_replacement own
          (fun request member => (regularBody request member).unrefused) walked result with
          ⟨methods, extended, types, rfl, gets, keeps⟩
        exact .record annotated inner gets keeps
  | .compound clauses, written, regular, result => by
    rcases Option.map_eq_some_iff.1 result with ⟨expanded, walked, rfl⟩
    exact .compound (clausesStandAs_of_walk regular walked)

theorem Source.Suite.standsAs_of_walk {around : Surroundings} :
    ∀ {suite written : Suite}, (∀ request ∈ suite.requests around, request.Regular) →
      (suite.walk around).result = some written → suite.StandsAs Request.KeptBy around written
  | .inline items ending, written, _, result => by
    cases result
    exact .inline items ending
  | .block opening indent body foot, written, regular, result => by
    rcases Option.map_eq_some_iff.1 result with ⟨expanded, walked, rfl⟩
    exact .block (statementsStandAs_of_walk regular walked)
  | .cases opening indent clauses foot, written, regular, result => by
    rcases Option.map_eq_some_iff.1 result with ⟨expanded, walked, rfl⟩
    exact .cases (clausesStandAs_of_walk regular walked)

theorem Source.Clause.standsAs_of_walk {around : Surroundings} :
    ∀ {clause written : Clause}, (∀ request ∈ clause.requests around, request.Regular) →
      (clause.walk around).result = some written → clause.StandsAs Request.KeptBy around written
  | .clause kind above tokens suite, written, regular, result => by
    rcases Option.map_eq_some_iff.1 result with ⟨expanded, walked, rfl⟩
    exact .clause (suite.standsAs_of_walk regular walked)

theorem statementsStandAs_of_walk {around : Surroundings} :
    ∀ {statements written : List Statement},
      (∀ request ∈ requestsInStatements around statements, request.Regular) →
      (walkStatements around statements).result = some written →
      StatementsStandAs Request.KeptBy around statements written
  | [], written, _, result => by
    cases result
    exact .nil
  | first :: later, written, regular, result => by
    rcases List.forall_mem_append.1 regular with ⟨regularFirst, regularLater⟩
    rcases Visit.andThen_eq_some result with ⟨front, back, walked, others, rfl⟩
    exact .cons (first.standsAs_of_walk regularFirst walked)
      (statementsStandAs_of_walk regularLater others)

theorem clausesStandAs_of_walk {around : Surroundings} :
    ∀ {clauses written : List Clause},
      (∀ request ∈ requestsInClauses around clauses, request.Regular) →
      (walkClauses around clauses).result = some written →
      ClausesStandAs Request.KeptBy around clauses written
  | [], written, _, result => by
    cases result
    exact .nil
  | first :: later, written, regular, result => by
    rcases List.forall_mem_append.1 regular with ⟨regularFirst, regularLater⟩
    rcases Visit.andThen_eq_some result with ⟨expanded, others, walked, rest, rfl⟩
    exact .cons (first.standsAs_of_walk regularFirst walked)
      (clausesStandAs_of_walk regularLater rest)

end

/-! ## The expanded file -/

theorem Source.SourceFile.regular_of_mem {values : SettingValues} {settings : Settings}
    {code : Text} {filename : Option Text} {file : SourceFile} {request : Request}
    (checked : Settings.check values = .ok settings) (parsed : SourceFile.parse? code = some file)
    (clean : ∀ request ∈ file.requests settings filename, request.refusal = none)
    (member : request ∈ file.requests settings filename) : request.Regular := by
  have same := SourceFile.sameFile_of_mem member
  have settingsOfFile : request.around.settings = settings := same.settings
  have unit : request.around.unit = file.defaultIndent := same.unit
  constructor
  case accepted =>
    rw [settingsOfFile]
    exact Settings.accepted_of_check checked
  case identifier =>
    exact (obeys_of_mem_statements _ file.body (identifiers_of_parse? parsed) member).1
  case blank =>
    rw [unit]
    exact SourceFile.blank_defaultIndent parsed
  case unrefused => exact clean request member

/-- A successful expansion keeps all records.  The printed tree is that of the file with each expanded
class in its place, at whatever depth, and with one run of imports at the top level.  From such a class
the model of the request is extracted again, with the same type name, generic parameters and fields,
with the methods behind the other members, and without requests; and no code is generated from that
model for any of the capabilities that the class was expanded with. -/
theorem expand_keepsRecords {values : SettingValues} {settings : Settings} {code : Text}
    {filename : Option Text} {file : SourceFile} {expansion : Expansion}
    (checked : Settings.check values = .ok settings)
    (parsed : SourceFile.parse? code = some file)
    (returned : expand settings code filename = .ok expansion)
    (succeeded : expansion.success = true) :
    ∃ front added back,
      StatementsStandAs Request.KeptBy (topOfFile settings filename file) file.body
          (front ++ back) ∧
        List.Forall₂ (fun name statement => importStatement? name = some statement)
          (importsFor settings expansion.models (front ++ back)) added ∧
        expansion.code = { file with body := front ++ added ++ back }.print := by
  rcases expand_of_success parsed returned succeeded with
    ⟨clean, body, accepted, finished, names, walked, -, imported, rfl⟩
  rcases withImports_eq_some imported with ⟨front, added, back, parts, imports, rfl⟩
  dsimp only at parts imports
  rw [parts] at walked imports
  refine ⟨front, added, back, statementsStandAs_of_walk (fun request member => ?_) walked, imports,
    rfl⟩
  exact SourceFile.regular_of_mem checked parsed clean member

/-- A class with its body on the line of its header, and a class inside one of its methods. -/
def recordInRecord : Text :=
  "@destructure\nclass P:\n x: A\n def f(self):\n  @destructure_ref\n  class Q: y: B; z = 1\n"

/-- Expansion of the example succeeds, and both of its classes are kept. -/
theorem expand_recordInRecord_keepsRecords : ∃ (file : SourceFile) (expansion : Expansion)
    (front added back : List Statement),
    SourceFile.parse? recordInRecord = some file ∧
      expand .default recordInRecord none = .ok expansion ∧ expansion.success = true ∧
      expansion.models.map (·.typeName) = ["Q", "P"] ∧
      StatementsStandAs Request.KeptBy (topOfFile .default none file) file.body (front ++ back) ∧
      expansion.code = { file with body := front ++ added ++ back }.print := by
  have readable : (SourceFile.parse? recordInRecord).isSome = true := by decide +kernel
  have expands : (match expand .default recordInRecord none with
      | .ok expansion =>
        expansion.success && expansion.models.map (·.typeName) == ["Q", "P"]
      | .error _ => false) = true := by decide +kernel
  rcases Option.isSome_iff_exists.1 readable with ⟨file, parsed⟩
  cases returned : expand .default recordInRecord none with
  | error fault =>
    rw [returned] at expands
    cases expands
  | ok expansion =>
    rw [returned] at expands
    rcases Bool.and_eq_true_iff.1 expands with ⟨succeeded, models⟩
    rcases expand_keepsRecords Settings.check_empty parsed returned succeeded with
      ⟨front, added, back, stands, -, printed⟩
    exact ⟨file, expansion, front, added, back, parsed, rfl, succeeded, beq_iff_eq.1 models, stands,
      printed⟩

end OpenRecord
