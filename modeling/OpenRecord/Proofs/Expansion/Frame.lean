import Mathlib.Data.List.Forall2
import OpenRecord.Proofs.Expansion.Reporting

namespace OpenRecord

/-!
# What expansion leaves alone

A relation says what an expanded tree may look like: every statement stays where it is, around
whatever became of the blocks in it, and only a class that asks for a capability loses decorators,
gets methods at its end and types behind it.  The relation is stated over trees and does not speak
of the walk.

The main statement is that a successful expansion prints a tree that stands in this relation to the
one that was read, with imports put between two of its top-level statements.  A file without
requests is expanded to itself.
-/

open Source

/-! ## Expanded trees -/

/-- A statement is what an artifact becomes at a margin: its text, written for that margin and read
again, below some empty lines. -/
def Artifact.BecomesAt (unit margin : Text) (artifact : Artifact) (statement : Statement) : Prop :=
  ∃ read separation, spliced unit margin artifact = some read ∧
    statement = read.withAbove (List.replicate separation .empty)

/-- A class body gets statements at its end.  A body on the line of the header becomes a block with
one of its statements on each line. -/
inductive Source.Suite.GetsAtEnd (unit : Text) (added : List Statement) : Suite → Suite → Prop
  | block (opening : LineEnd) (indent : Text) (body : List Statement) (foot : List Line) :
    GetsAtEnd unit added (.block opening indent body foot)
      (.block opening indent (body ++ added) foot)
  | inline (items : List Item) (ending : LineEnd) :
    GetsAtEnd unit added (.inline items ending)
      (.block ⟨[], .usual⟩ unit (items.map (·.ownLine) ++ added) [])

section Relation

variable (settings : Settings) (unit : Text)

mutual

/-- A statement and what stands in its place after expansion. -/
inductive Source.Statement.ExpandsTo : Statement → List Statement → Prop
  | simple (above : List Line) (items : List Item) (ending : LineEnd) :
    Source.Statement.ExpandsTo (.simple above items ending) [.simple above items ending]
  | compound {clauses expanded : List Clause} :
    ClausesExpandTo clauses expanded →
    Source.Statement.ExpandsTo (.compound clauses) [.compound expanded]
  | plain {head : Source.Definition} {body expanded : Suite} :
    head.annotated = false → Source.Suite.ExpandsTo body expanded →
    Source.Statement.ExpandsTo (.definition head body) [.definition head expanded]
  | record {head : Source.Definition} {shape : ClassHead} {body expanded extended : Suite}
      {location : Option Location} {scope : Option (List Text)} {model : RecordModel}
      {artifacts : List Artifact} {margin : Text} {methods types : List Statement} :
    head.role = .classDefinition shape → head.annotated = true →
    extractClass head shape body location = .ok model →
    generate model settings scope = .ok artifacts →
    Source.Suite.ExpandsTo body expanded → expanded.GetsAtEnd unit methods extended →
    List.Forall₂ (Artifact.BecomesAt unit (margin ++ unit))
      (artifacts.filter (·.placement = .inClass)) methods →
    List.Forall₂ (Artifact.BecomesAt unit margin)
      (artifacts.filter (·.placement = .besideClass)) types →
    Source.Statement.ExpandsTo (.definition head body)
      (.definition { head with decorators := head.decorators.filter (·.capability.isNone) }
        extended :: types)

/-- What stands behind a colon, and what it becomes. -/
inductive Source.Suite.ExpandsTo : Suite → Suite → Prop
  | inline (items : List Item) (ending : LineEnd) :
    Source.Suite.ExpandsTo (.inline items ending) (.inline items ending)
  | block {opening : LineEnd} {indent : Text} {body expanded : List Statement}
      {foot : List Line} :
    StatementsExpandTo body expanded →
    Source.Suite.ExpandsTo (.block opening indent body foot) (.block opening indent expanded foot)
  | cases {opening : LineEnd} {indent : Text} {clauses expanded : List Clause}
      {foot : List Line} :
    ClausesExpandTo clauses expanded →
    Source.Suite.ExpandsTo (.cases opening indent clauses foot)
      (.cases opening indent expanded foot)

inductive Source.Clause.ExpandsTo : Clause → Clause → Prop
  | clause {kind : ClauseKind} {above : List Line} {tokens : List Token}
      {suite expanded : Suite} :
    Source.Suite.ExpandsTo suite expanded →
    Source.Clause.ExpandsTo (.clause kind above tokens suite) (.clause kind above tokens expanded)

/-- Consecutive statements and what they become, one after another. -/
inductive StatementsExpandTo : List Statement → List Statement → Prop
  | nil : StatementsExpandTo [] []
  | cons {first : Statement} {later front back : List Statement} :
    Source.Statement.ExpandsTo first front → StatementsExpandTo later back →
    StatementsExpandTo (first :: later) (front ++ back)

/-- Consecutive clauses and what they become, one after another. -/
inductive ClausesExpandTo : List Clause → List Clause → Prop
  | nil : ClausesExpandTo [] []
  | cons {first expanded : Clause} {later others : List Clause} :
    Source.Clause.ExpandsTo first expanded → ClausesExpandTo later others →
    ClausesExpandTo (first :: later) (expanded :: others)

end

end Relation

/-! ## The walk keeps to the relation -/

/-- Mapping through a partial function relates every member to its value. -/
theorem forall₂_of_mapM_eq_some {α β : Type} {f : α → Option β} {items : List α}
    {values : List β} (mapped : items.mapM f = some values) :
    List.Forall₂ (fun item value => f item = some value) items values := by
  induction items generalizing values with
  | nil =>
    cases mapped
    exact .nil
  | cons first later ih =>
    rw [List.mapM_cons] at mapped
    cases found : f first with
    | none => simp [found] at mapped
    | some value =>
      cases rest : later.mapM f with
      | none => simp [found, rest] at mapped
      | some others =>
        simp only [found, rest, Option.bind_eq_bind, Option.bind_some, Option.pure_def,
          Option.some.injEq] at mapped
        subst mapped
        exact .cons found (ih rest)

theorem becomesAt_of_placed {placement : Placement} {unit margin : Text} {separation : Nat}
    {artifacts : List Artifact} {statements : List Statement}
    (result : placed placement unit margin separation artifacts = some statements) :
    List.Forall₂ (Artifact.BecomesAt unit margin) (artifacts.filter (·.placement = placement))
      statements := by
  refine (forall₂_of_mapM_eq_some result).imp fun artifact statement written => ?_
  rcases Option.map_eq_some_iff.1 written with ⟨read, reads, same⟩
  exact ⟨read, separation, reads, same.symm⟩

theorem spliceClass_eq_some {site : Site} {head : Source.Definition} {body : Suite}
    {artifacts : List Artifact} {written : List Statement}
    (result : spliceClass site head body artifacts = some written) :
    ∃ methods types,
      List.Forall₂ (Artifact.BecomesAt site.unit (site.margin ++ site.unit))
          (artifacts.filter (·.placement = .inClass)) methods ∧
        List.Forall₂ (Artifact.BecomesAt site.unit site.margin)
          (artifacts.filter (·.placement = .besideClass)) types ∧
        written = .definition head.stripped (body.appended site.unit methods) :: types := by
  unfold spliceClass at result
  rcases Option.bind_eq_some_iff.1 result with ⟨methods, inClass, rest⟩
  rcases Option.bind_eq_some_iff.1 rest with ⟨types, besideClass, same⟩
  exact ⟨methods, types, becomesAt_of_placed inClass, becomesAt_of_placed besideClass,
    (Option.some.inj same).symm⟩

/-- A body made of cases only declares nothing, so that no class with such a body is a record. -/
theorem extractClass_of_cases {head : Source.Definition} {shape : ClassHead} {opening : LineEnd}
    {indent : Text} {clauses : List Clause} {foot : List Line} {location : Option Location}
    {model : RecordModel} :
    extractClass head shape (.cases opening indent clauses foot) location ≠ .ok model := by
  intro extracted
  rcases extractClass_eq_ok extracted with ⟨-, -, -, fields, nonempty⟩
  exact nonempty fields

theorem getsAtEnd_of_extracted {settings : Settings} {unit : Text} {head : Source.Definition}
    {shape : ClassHead} {body expanded : Suite} {location : Option Location} {model : RecordModel}
    (extracted : extractClass head shape body location = .ok model)
    (expands : body.ExpandsTo settings unit expanded) (methods : List Statement) :
    expanded.GetsAtEnd unit methods (expanded.appended unit methods) := by
  cases expands with
  | inline items ending => exact .inline items ending
  | block _ => exact .block _ _ _ _
  | cases _ => exact absurd extracted extractClass_of_cases

/-- Leaving a definition that is not refused keeps to the relation if its body does. -/
theorem expandsTo_of_leaveDefinition {around : Surroundings} {head : Source.Definition}
    {body : Suite} {visit : Visit Suite} {written : List Statement}
    (inner : ∀ expanded, visit.result = some expanded →
      body.ExpandsTo around.settings around.unit expanded)
    (clean : head.annotated = true → Request.refusal ⟨around, head, body⟩ = none)
    (result : (leaveDefinition around head body visit).result = some written) :
    Statement.ExpandsTo around.settings around.unit (.definition head body) written := by
  cases walked : visit.result with
  | none => simp [leaveDefinition, walked] at result
  | some expanded =>
    have expands := inner expanded walked
    cases annotated : head.annotated with
    | false =>
      rw [leaveDefinition_of_plain annotated walked] at result
      cases result
      exact .plain annotated expands
    | true =>
      rw [leaveDefinition_of_annotated annotated walked] at result
      dsimp only at result
      cases verdict : Request.verdict ⟨around, head, body⟩ with
      | error diagnostic =>
        have refused := Request.refusal_eq_some_iff.2 verdict
        rw [clean annotated] at refused
        cases refused
      | ok accepted =>
        rcases accepted with ⟨model, artifacts⟩
        rcases Request.verdict_eq_ok_iff.1 verdict with ⟨shape, role, extracted, -, generated⟩
        simp only [Request.replacement, verdict] at result
        rcases spliceClass_eq_some result with ⟨methods, types, inClass, besideClass, rfl⟩
        exact .record role annotated extracted generated expands
          (getsAtEnd_of_extracted extracted expands methods) inClass besideClass

theorem Visit.andThen_eq_some {α β γ : Type} {join : α → β → γ} {first : Visit α}
    {second : Visit β} {value : γ} (result : (first.andThen join second).result = some value) :
    ∃ left right, first.result = some left ∧ second.result = some right ∧
      value = join left right := by
  unfold Visit.andThen at result
  cases former : first.result with
  | none => simp [former] at result
  | some left =>
    rw [former] at result
    rcases Option.map_eq_some_iff.1 result with ⟨right, latter, same⟩
    exact ⟨left, right, rfl, latter, same.symm⟩

mutual

/-- A walk over a statement in which nothing is refused keeps to the relation. -/
theorem Source.Statement.expandsTo_of_walk {around : Surroundings} :
    ∀ {statement : Statement} {written : List Statement},
      (∀ request ∈ statement.requests around, request.refusal = none) →
      (statement.walk around).result = some written →
      statement.ExpandsTo around.settings around.unit written
  | .simple above items ending, written, _, result => by
    cases result
    exact .simple above items ending
  | .definition head body, written, clean, result => by
    have same := around.sameFile_enter head.role
    refine expandsTo_of_leaveDefinition (fun expanded walked => ?_) (fun annotated => ?_) result
    · rw [← same.settings, ← same.unit]
      refine Source.Suite.expandsTo_of_walk (fun request member => clean request ?_) walked
      exact List.mem_append_left _ member
    · refine clean _ (List.mem_append_right _ ?_)
      simp [annotated]
  | .compound clauses, written, clean, result => by
    rcases Option.map_eq_some_iff.1 result with ⟨expanded, walked, rfl⟩
    exact .compound (clausesExpandTo_of_walk clean walked)

/-- A walk over what stands behind a colon keeps to the relation. -/
theorem Source.Suite.expandsTo_of_walk {around : Surroundings} :
    ∀ {suite written : Suite}, (∀ request ∈ suite.requests around, request.refusal = none) →
      (suite.walk around).result = some written →
      suite.ExpandsTo around.settings around.unit written
  | .inline items ending, written, _, result => by
    cases result
    exact .inline items ending
  | .block opening indent body foot, written, clean, result => by
    rcases Option.map_eq_some_iff.1 result with ⟨expanded, walked, rfl⟩
    have same := around.sameFile_enterBlock body
    rw [← same.settings, ← same.unit]
    exact .block (statementsExpandTo_of_walk clean walked)
  | .cases opening indent clauses foot, written, clean, result => by
    rcases Option.map_eq_some_iff.1 result with ⟨expanded, walked, rfl⟩
    exact .cases (clausesExpandTo_of_walk clean walked)

theorem Source.Clause.expandsTo_of_walk {around : Surroundings} :
    ∀ {clause written : Clause}, (∀ request ∈ clause.requests around, request.refusal = none) →
      (clause.walk around).result = some written →
      clause.ExpandsTo around.settings around.unit written
  | .clause kind above tokens suite, written, clean, result => by
    rcases Option.map_eq_some_iff.1 result with ⟨expanded, walked, rfl⟩
    exact .clause (suite.expandsTo_of_walk clean walked)

theorem statementsExpandTo_of_walk {around : Surroundings} :
    ∀ {statements written : List Statement},
      (∀ request ∈ requestsInStatements around statements, request.refusal = none) →
      (walkStatements around statements).result = some written →
      StatementsExpandTo around.settings around.unit statements written
  | [], written, _, result => by
    cases result
    exact .nil
  | first :: later, written, clean, result => by
    rcases List.forall_mem_append.1 clean with ⟨cleanFirst, cleanLater⟩
    rcases Visit.andThen_eq_some result with ⟨front, back, walked, others, rfl⟩
    exact .cons (first.expandsTo_of_walk cleanFirst walked)
      (statementsExpandTo_of_walk cleanLater others)

theorem clausesExpandTo_of_walk {around : Surroundings} :
    ∀ {clauses written : List Clause},
      (∀ request ∈ requestsInClauses around clauses, request.refusal = none) →
      (walkClauses around clauses).result = some written →
      ClausesExpandTo around.settings around.unit clauses written
  | [], written, _, result => by
    cases result
    exact .nil
  | first :: later, written, clean, result => by
    rcases List.forall_mem_append.1 clean with ⟨cleanFirst, cleanLater⟩
    rcases Visit.andThen_eq_some result with ⟨expanded, others, walked, rest, rfl⟩
    exact .cons (first.expandsTo_of_walk cleanFirst walked)
      (clausesExpandTo_of_walk cleanLater rest)

end

/-! ## Trees without requests -/

mutual

theorem Source.Statement.walk_of_no_request {around : Surroundings} :
    ∀ statement : Statement, statement.requests around = [] →
      (statement.walk around).result = some [statement]
  | .simple _ _ _, _ => rfl
  | .definition head body, quiet => by
    rcases List.append_eq_nil_iff.1 quiet with ⟨inner, own⟩
    have plain : head.annotated = false := by simpa using own
    have walked := body.walk_of_no_request inner
    unfold Statement.walk
    rw [leaveDefinition_of_plain plain walked]
  | .compound clauses, quiet => by
    have walked := walkClauses_of_no_request clauses quiet
    simp [Statement.walk, Visit.map, walked]

/-- What stands behind a colon and has no requests is walked over unchanged. -/
theorem Source.Suite.walk_of_no_request {around : Surroundings} :
    ∀ suite : Suite, suite.requests around = [] → (suite.walk around).result = some suite
  | .inline _ _, _ => rfl
  | .block opening indent body foot, quiet => by
    have walked := walkStatements_of_no_request body quiet
    simp [Suite.walk, Visit.map, walked]
  | .cases opening indent clauses foot, quiet => by
    have walked := walkClauses_of_no_request clauses quiet
    simp [Suite.walk, Visit.map, walked]

theorem Source.Clause.walk_of_no_request {around : Surroundings} :
    ∀ clause : Clause, clause.requests around = [] → (clause.walk around).result = some clause
  | .clause kind above tokens suite, quiet => by
    have walked := suite.walk_of_no_request quiet
    simp [Clause.walk, Visit.map, walked]

theorem walkStatements_of_no_request {around : Surroundings} :
    ∀ statements : List Statement, requestsInStatements around statements = [] →
      (walkStatements around statements).result = some statements
  | [], _ => rfl
  | first :: later, quiet => by
    rcases List.append_eq_nil_iff.1 quiet with ⟨front, back⟩
    have former := first.walk_of_no_request front
    have latter := walkStatements_of_no_request later back
    simp [walkStatements, Visit.andThen, former, latter]

theorem walkClauses_of_no_request {around : Surroundings} :
    ∀ clauses : List Clause, requestsInClauses around clauses = [] →
      (walkClauses around clauses).result = some clauses
  | [], _ => rfl
  | first :: later, quiet => by
    rcases List.append_eq_nil_iff.1 quiet with ⟨front, back⟩
    have former := first.walk_of_no_request front
    have latter := walkClauses_of_no_request later back
    simp [walkClauses, Visit.andThen, former, latter]

end

/-! ## Whole files -/

/-- The modules whose imports are added to statements with generated code for some models. -/
def importsFor (settings : Settings) (models : List RecordModel) (statements : List Statement) :
    List Text :=
  if models.isEmpty || !settings.injectImports then []
  else missingImports (requiredImports models) statements

theorem withImports_eq_some {settings : Settings} {models : List RecordModel}
    {file finished : SourceFile} {names : List Text}
    (result : withImports settings models file = some (finished, names)) :
    ∃ front added back, file.body = front ++ back ∧
      List.Forall₂ (fun name statement => importStatement? name = some statement)
        (importsFor settings models file.body) added ∧
      finished = { file with body := front ++ added ++ back } := by
  unfold withImports at result
  unfold importsFor
  split at result
  · cases result
    refine ⟨[], [], file.body, rfl, ?_, rfl⟩
    rw [if_pos ‹_›]
    exact .nil
  case isFalse wanted =>
    rw [if_neg wanted]
    unfold addImports at result
    rcases Option.bind_eq_some_iff.1 result with ⟨added, mapped, rest⟩
    have imports := forall₂_of_mapM_eq_some mapped
    split at rest
    case isTrue nothing =>
      cases rest
      rw [List.isEmpty_iff.1 nothing]
      exact ⟨[], [], file.body, rfl, .nil, rfl⟩
    case isFalse =>
      cases rest
      exact ⟨_, added, _, (splitPrologue_append file.body).symm, imports, rfl⟩

/-- Expansion only adds.  A successful one prints a tree to which the tree of the file expands, with
nothing else in it but one run of imports at the top level; and a file that makes no request is
printed as it was read. -/
theorem expand_onlyAdds {settings : Settings} {code : Text} {filename : Option Text}
    {file : SourceFile} (parsed : SourceFile.parse? code = some file) :
    (∀ expansion, expand settings code filename = .ok expansion → expansion.success = true →
      ∃ front added back,
        StatementsExpandTo settings file.defaultIndent file.body (front ++ back) ∧
          List.Forall₂ (fun name statement => importStatement? name = some statement)
            (importsFor settings expansion.models (front ++ back)) added ∧
          expansion.code = { file with body := front ++ added ++ back }.print) ∧
      (file.requests settings filename = [] →
        expand settings code filename = .ok ⟨file.print, [], [], []⟩) := by
  constructor
  · intro expansion returned succeeded
    rcases expand_of_success parsed returned succeeded with
      ⟨clean, body, accepted, finished, names, walked, -, imported, rfl⟩
    rcases withImports_eq_some imported with ⟨front, added, back, parts, imports, rfl⟩
    have expands := statementsExpandTo_of_walk clean walked
    dsimp only at parts imports
    rw [parts] at expands imports
    exact ⟨front, added, back, expands, imports, rfl⟩
  · intro quiet
    have fit : ∀ request ∈ file.requests settings filename, request.Fits := by simp [quiet]
    rcases expand_of_accepted parsed fit (by simp [quiet]) with
      ⟨body, accepted, finished, names, walked, verdicts, imported, same⟩
    have nothing : accepted = [] := by simpa [quiet] using verdicts.symm
    subst nothing
    have kept : (file.visit settings filename).result = some file.body :=
      walkStatements_of_no_request file.body quiet
    rw [kept] at walked
    cases walked
    simp only [withImports, List.map_nil, List.isEmpty_nil, Bool.true_or, if_true,
      Option.some.injEq, Prod.mk.injEq] at imported
    rw [same, ← imported.1]
    rfl

/-- A class that asks for a read-only view. -/
def viewedClass : Text :=
  "@destructure_ref\nclass P:\n    x: int\n"

/-- Expansion of the example succeeds, and its class is only added to. -/
theorem expand_viewedClass_onlyAdds : ∃ (file : SourceFile) (expansion : Expansion)
    (front added back : List Statement),
    SourceFile.parse? viewedClass = some file ∧
      expand .default viewedClass none = .ok expansion ∧ expansion.success = true ∧
      StatementsExpandTo .default file.defaultIndent file.body (front ++ back) ∧
      expansion.code = { file with body := front ++ added ++ back }.print := by
  have readable : (SourceFile.parse? viewedClass).isSome = true := by decide +kernel
  have expands : (match expand .default viewedClass none with
      | .ok expansion => expansion.success
      | .error _ => false) = true := by decide +kernel
  rcases Option.isSome_iff_exists.1 readable with ⟨file, parsed⟩
  cases returned : expand .default viewedClass none with
  | error fault =>
    rw [returned] at expands
    cases expands
  | ok expansion =>
    rw [returned] at expands
    rcases (expand_onlyAdds parsed).1 expansion returned expands with
      ⟨front, added, back, expanded, -, printed⟩
    exact ⟨file, expansion, front, added, back, parsed, rfl, expands, expanded, printed⟩

end OpenRecord
