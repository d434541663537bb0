import OpenRecord.Proofs.Expansion.ImportPlaces

namespace OpenRecord

/-!
# What expansion leaves to do

A tree is quiet if no definition in it, at any depth, requests anything.  An expanded tree can have
requests only in the statements that artifacts are read as: a class loses the decorators that make
its request, and everything else is kept.  So the expanded tree is quiet exactly if all of these
statements are, and then a second expansion has nothing to do.

Whether the statements are quiet is a question about the text of artifacts, and not answered here.
-/

open Source

/-! ## Quiet trees -/

/-- The capability that an expression requests as a decorator. -/
def Source.Expression.capability (value : Expression) : Option Capability :=
  let function :=
    match value with
    | .call function => function
    | plain => plain
  Capability.ofLabel? function.lastSegment

/-- Decorators request nothing. -/
def quietLaw : TreeLaw :=
  ⟨fun _ => True, fun value => value.capability = none, fun _ => True⟩

theorem annotated_eq_false_iff {head : Source.Definition} :
    head.annotated = false ↔
      ∀ decorator ∈ head.decorators, decorator.expression.capability = none := by
  unfold Source.Definition.annotated Source.Definition.capabilities
  rw [Bool.not_eq_false', List.isEmpty_iff, List.filterMap_eq_nil_iff]
  rfl

theorem capability_of_mem_stripped {head : Source.Definition} :
    ∀ decorator ∈ head.stripped.decorators, decorator.expression.capability = none := by
  intro decorator member
  exact Option.isNone_iff_eq_none.1 (List.mem_filter.1 member).2

mutual

theorem Source.Statement.quiet_iff (around : Surroundings) : ∀ statement : Statement,
    statement.Obeys quietLaw ↔ statement.requests around = []
  | .simple _ _ _ => iff_of_true trivial rfl
  | .definition head body => by
    have inner := body.quiet_iff (around.enter head.role)
    have own : (if head.annotated then [(⟨around, head, body⟩ : Request)] else []) = [] ↔
        ∀ decorator ∈ head.decorators, decorator.expression.capability = none := by
      rw [← annotated_eq_false_iff]
      cases head.annotated <;> simp
    rw [Statement.requests, List.append_eq_nil_iff, ← inner, own]
    constructor
    · rintro ⟨-, plain, quiet⟩
      exact ⟨quiet, plain⟩
    · rintro ⟨quiet, plain⟩
      exact ⟨trivial, plain, quiet⟩
  | .compound clauses => quiet_iff_clauses around clauses

/-- What stands behind a colon is quiet if no request is made in it. -/
theorem Source.Suite.quiet_iff (around : Surroundings) : ∀ suite : Suite,
    suite.Obeys quietLaw ↔ suite.requests around = []
  | .inline _ _ => iff_of_true trivial rfl
  | .block _ _ body _ => quiet_iff_statements (around.enterBlock body) body
  | .cases _ _ clauses _ => quiet_iff_clauses around clauses

theorem Source.Clause.quiet_iff (around : Surroundings) : ∀ clause : Clause,
    clause.Obeys quietLaw ↔ clause.requests around = []
  | .clause _ _ _ suite => suite.quiet_iff around

theorem quiet_iff_statements (around : Surroundings) : ∀ statements : List Statement,
    StatementsObey quietLaw statements ↔ requestsInStatements around statements = []
  | [] => iff_of_true trivial rfl
  | first :: later => by
    rw [StatementsObey, requestsInStatements, List.append_eq_nil_iff, first.quiet_iff around,
      quiet_iff_statements around later]

theorem quiet_iff_clauses (around : Surroundings) : ∀ clauses : List Clause,
    ClausesObey quietLaw clauses ↔ requestsInClauses around clauses = []
  | [] => iff_of_true trivial rfl
  | first :: later => by
    rw [ClausesObey, requestsInClauses, List.append_eq_nil_iff, first.quiet_iff around,
      quiet_iff_clauses around later]

end

theorem Source.SourceFile.requests_of_quiet {file : SourceFile}
    (quiet : StatementsObey quietLaw file.body) (settings : Settings) (filename : Option Text) :
    file.requests settings filename = [] :=
  (quiet_iff_statements _ _).1 quiet

/-- A walk over a file that makes no request settles nothing and changes nothing. -/
theorem Source.SourceFile.visit_of_no_request {file : SourceFile} {settings : Settings}
    {filename : Option Text} (nothing : file.requests settings filename = []) :
    file.visit settings filename = ⟨[], some file.body⟩ := by
  have result : (file.visit settings filename).result = some file.body :=
    walkStatements_of_no_request file.body nothing
  have outcomes := (file.visit_settles settings filename).outcomes (by rw [result]; rfl)
  rw [nothing, List.map_nil] at outcomes
  cases visit : file.visit settings filename with
  | mk settled written =>
    rw [visit] at result outcomes
    cases result
    cases outcomes
    rfl

/-! ## What is put into a tree -/

theorem Source.Statement.obeys_withAbove {law : TreeLaw} {above : List Line} :
    ∀ statement : Statement, (statement.withAbove above).Obeys law ↔ statement.Obeys law
  | .simple _ _ _ => .rfl
  | .definition _ _ => .rfl
  | .compound [] => .rfl
  | .compound (.clause _ _ _ _ :: _) => .rfl

theorem statementsObey_append {law : TreeLaw} {front back : List Statement} :
    StatementsObey law (front ++ back) ↔
      StatementsObey law front ∧ StatementsObey law back := by
  rw [statementsObey_iff, statementsObey_iff, statementsObey_iff, List.forall_mem_append]

theorem Source.Suite.GetsAtEnd.quiet_iff {unit : Text} {added : List Statement}
    {suite extended : Suite} (gets : suite.GetsAtEnd unit added extended) :
    extended.Obeys quietLaw ↔ suite.Obeys quietLaw ∧ StatementsObey quietLaw added := by
  cases gets with
  | block opening indent body foot => exact statementsObey_append
  | inline items ending =>
    have lines : StatementsObey quietLaw (items.map (·.ownLine)) := by
      rw [statementsObey_iff]
      intro statement member
      rcases List.mem_map.1 member with ⟨item, -, rfl⟩
      exact trivial
    have joined : (Suite.block ⟨[], .usual⟩ unit (items.map (·.ownLine) ++ added) []).Obeys
        quietLaw ↔ StatementsObey quietLaw (items.map (·.ownLine) ++ added) := .rfl
    rw [joined, statementsObey_append]
    exact and_congr_left' (iff_of_true lines trivial)

/-- The artifacts of a request, if it is accepted, are read as quiet statements at their places. -/
def Request.SplicesQuietly (request : Request) : Prop :=
  ∀ model artifacts, request.verdict = .ok (model, artifacts) →
    ∀ artifact ∈ artifacts, ∀ statement,
      spliced request.around.unit (request.margin artifact.placement) artifact = some statement →
        statement.Obeys quietLaw

/-- The statements that the artifacts of one placement become are quiet if the artifacts are read as
quiet statements. -/
theorem quiet_iff_of_becomesAt {unit margin : Text} {artifacts : List Artifact}
    {statements : List Statement}
    (become : List.Forall₂ (Artifact.BecomesAt unit margin) artifacts statements) :
    StatementsObey quietLaw statements ↔
      ∀ artifact ∈ artifacts, ∀ statement, spliced unit margin artifact = some statement →
        statement.Obeys quietLaw := by
  rw [statementsObey_iff]
  constructor
  · intro quiet artifact member statement reads
    rcases exists_of_forall₂_right become.flip member with
      ⟨written, among, read, separation, reads', rfl⟩
    cases reads.symm.trans reads'
    exact (Statement.obeys_withAbove _).1 (quiet _ among)
  · intro quiet statement member
    rcases exists_of_forall₂_right become member with
      ⟨artifact, among, read, separation, reads, rfl⟩
    exact (Statement.obeys_withAbove _).2 (quiet artifact among read reads)

/-! ## What the walk leaves -/

/-- An accepted request leaves a quiet tree in place of its class exactly if the walk made the body
quiet and the artifacts of the request are read as quiet statements. -/
theorem Request.quiet_replacement_iff {request : Request} {expanded : Suite}
    {written : List Statement} (unrefused : request.refusal = none)
    (expands : request.body.ExpandsTo request.around.settings request.around.unit expanded)
    (replaced : request.replacement expanded = some written) :
    StatementsObey quietLaw written ↔ expanded.Obeys quietLaw ∧ request.SplicesQuietly := by
  cases verdict : request.verdict with
  | error diagnostic =>
    rw [refusal_eq_some_iff.2 verdict] at unrefused
    cases unrefused
  | ok found =>
    rcases found with ⟨model, artifacts⟩
    rcases verdict_eq_ok_iff.1 verdict with ⟨shape, role, extracted, -, -⟩
    simp only [replacement, verdict] at replaced
    rcases spliceClass_eq_some replaced with ⟨methods, types, inClass, besideClass, rfl⟩
    have gets := getsAtEnd_of_extracted extracted expands methods
    have splices : request.SplicesQuietly ↔
        StatementsObey quietLaw methods ∧ StatementsObey quietLaw types := by
      rw [quiet_iff_of_becomesAt inClass, quiet_iff_of_becomesAt besideClass]
      constructor
      · intro quiet
        refine ⟨fun artifact member => ?_, fun artifact member => ?_⟩
        all_goals
          rcases List.mem_filter.1 member with ⟨among, place⟩
          have same := quiet model artifacts verdict artifact among
          rw [of_decide_eq_true place] at same
          exact same
      · rintro ⟨method, type⟩ model' artifacts' verdict' artifact among
        cases verdict.symm.trans verdict'
        cases place : artifact.placement with
        | inClass => exact method artifact (List.mem_filter.2 ⟨among, decide_eq_true place⟩)
        | besideClass => exact type artifact (List.mem_filter.2 ⟨among, decide_eq_true place⟩)
    have own : (Statement.definition request.head.stripped
        (expanded.appended request.around.unit methods)).Obeys quietLaw ↔
          (expanded.appended request.around.unit methods).Obeys quietLaw :=
      ⟨fun obeys => obeys.2.2, fun quiet => ⟨trivial, capability_of_mem_stripped, quiet⟩⟩
    have appended := gets.quiet_iff
    rw [splices, StatementsObey, ← and_assoc, ← appended]
    exact and_congr_left' own

mutual

/-- A walk over a statement in which nothing is refused leaves a quiet tree exactly if the artifacts
of all its requests are read as quiet statements. -/
theorem Source.Statement.walk_quiet_iff {around : Surroundings} :
    ∀ {statement : Statement} {written : List Statement},
      (∀ request ∈ statement.requests around, request.refusal = none) →
      (statement.walk around).result = some written →
      (StatementsObey quietLaw written ↔
        ∀ request ∈ statement.requests around, request.SplicesQuietly)
  | .simple above items ending, written, _, result => by
    cases result
    exact iff_of_true ⟨trivial, trivial⟩ nofun
  | .definition head body, written, clean, result => by
    rcases List.forall_mem_append.1 clean with ⟨cleanBody, cleanOwn⟩
    rw [Statement.walk] at result
    rw [Statement.requests, List.forall_mem_append]
    cases walked : (body.walk (around.enter head.role)).result with
    | none => simp [leaveDefinition, walked] at result
    | some expanded =>
      have inner := Source.Suite.walk_quiet_iff cleanBody walked
      cases annotated : head.annotated with
      | false =>
        rw [leaveDefinition_of_plain annotated walked] at result
        cases result
        have own : StatementsObey quietLaw [.definition head expanded] ↔
            expanded.Obeys quietLaw :=
          ⟨fun quiet => quiet.1.2.2,
            fun quiet => ⟨⟨trivial, annotated_eq_false_iff.1 annotated, quiet⟩, trivial⟩⟩
        rw [own, inner]
        simp
      | true =>
        rw [leaveDefinition_of_annotated annotated walked] at result
        rw [annotated] at cleanOwn
        have same := around.sameFile_enter head.role
        have expands := Source.Suite.expandsTo_of_walk cleanBody walked
        rw [same.settings, same.unit] at expands
        rw [Request.quiet_replacement_iff (cleanOwn _ (List.mem_singleton_self _)) expands result,
          inner]
        simp
  | .compound clauses, written, clean, result => by
    rcases Option.map_eq_some_iff.1 result with ⟨expanded, walked, rfl⟩
    rw [Statement.requests, ← walk_quiet_iff_clauses clean walked]
    exact ⟨fun quiet => quiet.1, fun quiet => ⟨quiet, trivial⟩⟩

theorem Source.Suite.walk_quiet_iff {around : Surroundings} :
    ∀ {suite written : Suite}, (∀ request ∈ suite.requests around, request.refusal = none) →
      (suite.walk around).result = some written →
      (written.Obeys quietLaw ↔ ∀ request ∈ suite.requests around, request.SplicesQuietly)
  | .inline items ending, written, _, result => by
    cases result
    exact iff_of_true trivial nofun
  | .block opening indent body foot, written, clean, result => by
    rcases Option.map_eq_some_iff.1 result with ⟨expanded, walked, rfl⟩
    exact walk_quiet_iff_statements clean walked
  | .cases opening indent clauses foot, written, clean, result => by
    rcases Option.map_eq_some_iff.1 result with ⟨expanded, walked, rfl⟩
    exact walk_quiet_iff_clauses clean walked

theorem Source.Clause.walk_quiet_iff {around : Surroundings} :
    ∀ {clause written : Clause}, (∀ request ∈ clause.requests around, request.refusal = none) →
      (clause.walk around).result = some written →
      (written.Obeys quietLaw ↔ ∀ request ∈ clause.requests around, request.SplicesQuietly)
  | .clause kind above tokens suite, written, clean, result => by
    rcases Option.map_eq_some_iff.1 result with ⟨expanded, walked, rfl⟩
    exact suite.walk_quiet_iff clean walked

theorem walk_quiet_iff_statements {around : Surroundings} :
    ∀ {statements written : List Statement},
      (∀ request ∈ requestsInStatements around statements, request.refusal = none) →
      (walkStatements around statements).result = some written →
      (StatementsObey quietLaw written ↔
        ∀ request ∈ requestsInStatements around statements, request.SplicesQuietly)
  | [], written, _, result => by
    cases result
    exact iff_of_true trivial nofun
  | first :: later, written, clean, result => by
    rcases List.forall_mem_append.1 clean with ⟨cleanFirst, cleanLater⟩
    rcases Visit.andThen_eq_some result with ⟨front, back, walked, others, rfl⟩
    rw [statementsObey_append, requestsInStatements, List.forall_mem_append,
      first.walk_quiet_iff cleanFirst walked, walk_quiet_iff_statements cleanLater others]

theorem walk_quiet_iff_clauses {around : Surroundings} :
    ∀ {clauses written : List Clause},
      (∀ request ∈ requestsInClauses around clauses, request.refusal = none) →
      (walkClauses around clauses).result = some written →
      (ClausesObey quietLaw written ↔
        ∀ request ∈ requestsInClauses around clauses, request.SplicesQuietly)
  | [], written, _, result => by
    cases result
    exact iff_of_true trivial nofun
  | first :: later, written, clean, result => by
    rcases List.forall_mem_append.1 clean with ⟨cleanFirst, cleanLater⟩
    rcases Visit.andThen_eq_some result with ⟨expanded, others, walked, rest, rfl⟩
    rw [ClausesObey, requestsInClauses, List.forall_mem_append,
      first.walk_quiet_iff cleanFirst walked, walk_quiet_iff_clauses cleanLater rest]

end

/-! ## What added imports leave -/

theorem quiet_of_importStatement? {models : List RecordModel} {module : Text}
    {statement : Statement} (required : module ∈ requiredImports models)
    (read : importStatement? module = some statement) : statement.Obeys quietLaw := by
  have imports := imports_of_importStatement? required read
  cases statement with
  | simple above items ending => exact trivial
  | definition head body => cases imports
  | compound clauses => cases imports

theorem mem_requiredImports_of_importsFor {settings : Settings} {models : List RecordModel}
    {statements : List Statement} {module : Text}
    (member : module ∈ importsFor settings models statements) :
    module ∈ requiredImports models := by
  unfold importsFor at member
  split at member
  · cases member
  · exact (List.mem_filter.1 member).1

/-- If imports are wanted, none is missing any more once they have been added. -/
theorem missingImports_of_added {settings : Settings} {models : List RecordModel}
    {front added back : List Statement} (wanted : settings.injectImports = true)
    (imports : List.Forall₂ (fun name statement => importStatement? name = some statement)
      (importsFor settings models (front ++ back)) added) :
    missingImports (requiredImports models) (front ++ added ++ back) = [] := by
  rw [missingImports, List.filter_eq_nil_iff]
  intro module required
  rw [Bool.not_eq_true, Bool.not_eq_false', List.contains_iff_mem, mem_importedNames_iff]
  have added_iff := exists_added_import_iff wanted required imports
  by_cases known : module ∈ importedNames (front ++ back)
  · rcases mem_importedNames_iff.1 known with ⟨statement, member, other, binds⟩
    refine ⟨statement, ?_, other, binds⟩
    rcases List.mem_append.1 member with former | latter
    · exact List.mem_append_left _ (List.mem_append_left _ former)
    · exact List.mem_append_right _ latter
  · rcases added_iff.2 known with ⟨statement, member, binds⟩
    exact ⟨statement, List.mem_append_left _ (List.mem_append_right _ member), module, binds⟩

theorem addImports_of_nothing_missing {required : List Text} {file : SourceFile}
    (nothing : missingImports required file.body = []) :
    addImports required file = some (file, []) := by
  rw [addImports, nothing]
  rfl

/-! ## The expanded file -/

/-- A successful expansion prints a file that is quiet exactly if the artifacts of all requests are
read as quiet statements.  In any case no import has to be added to it a second time. -/
theorem expand_quiet_iff {settings : Settings} {code : Text} {filename : Option Text}
    {file : SourceFile} {expansion : Expansion} (parsed : SourceFile.parse? code = some file)
    (returned : expand settings code filename = .ok expansion)
    (succeeded : expansion.success = true) :
    ∃ finished : SourceFile, expansion.code = finished.print ∧
      (StatementsObey quietLaw finished.body ↔
        ∀ request ∈ file.requests settings filename, request.SplicesQuietly) ∧
      (settings.injectImports = true →
        addImports (requiredImports expansion.models) finished = some (finished, [])) := by
  rcases expand_of_success parsed returned succeeded with
    ⟨clean, body, accepted, finished, names, walked, -, imported, rfl⟩
  rcases withImports_eq_some imported with ⟨front, added, back, parts, imports, rfl⟩
  dsimp only at parts imports
  rw [parts] at imports
  have quiet := walk_quiet_iff_statements clean walked
  have ready : StatementsObey quietLaw added := by
    rw [statementsObey_iff]
    intro statement member
    rcases exists_of_forall₂_right imports member with ⟨module, among, read⟩
    exact quiet_of_importStatement? (mem_requiredImports_of_importsFor among) read
  refine ⟨_, rfl, ?_, fun wanted => ?_⟩
  · rw [SourceFile.requests, ← quiet, parts, statementsObey_append, statementsObey_append,
      statementsObey_append]
    constructor
    · rintro ⟨⟨former, -⟩, latter⟩
      exact ⟨former, latter⟩
    · rintro ⟨former, latter⟩
      exact ⟨⟨former, ready⟩, latter⟩
  · exact addImports_of_nothing_missing (missingImports_of_added wanted imports)

end OpenRecord
