import OpenRecord.Proofs.Expansion.Frame
import OpenRecord.Proofs.Expansion.Splicing
import OpenRecord.Proofs.Expansion.StatementLists

namespace OpenRecord

/-!
# The names of generated types in a statement list

Behind every class of a list that asks for capabilities stand its generated types, one for each
capability, and nothing else binds new names in the list.  The types of one class never collide.
Those of two classes do so exactly if the name of one class with the suffix of a capability that it
requests is the name of the other with the suffix of one that that one requests.

Such a collision is not refused.  The names that a class is checked against are those of the list
as it was written, in which no generated type stands yet.
-/

open Source

/-! ## Requested capabilities -/

/-- The capabilities that a definition requests, each once, in the order of emission. -/
def Source.Definition.requested (head : Source.Definition) : List Capability :=
  Capability.all.filter fun capability => head.capabilities.contains capability

theorem Capabilities.contains_ofList (members : List Capability) (capability : Capability) :
    (Capabilities.ofList members).contains capability = members.contains capability := by
  have folded : ∀ (later : List Capability) (set : Capabilities),
      (later.foldl insert set).contains capability =
        (set.contains capability || later.contains capability) := by
    intro later
    induction later with
    | nil => simp
    | cons first others ih =>
      intro set
      rw [List.foldl_cons, ih, contains_insert, List.contains_cons, Bool.or_assoc,
        Bool.or_left_comm]
      rfl
  have none_yet : empty.contains capability = false := by cases capability <;> rfl
  rw [ofList, folded, none_yet, Bool.false_or]

theorem requested_of_extracted {head : Source.Definition} {shape : ClassHead} {body : Suite}
    {location : Option Location} {model : RecordModel}
    (extracted : extractClass head shape body location = .ok model) :
    model.requested = head.requested := by
  have capabilities := (extractClass_eq_ok extracted).2.2.1
  unfold RecordModel.requested Definition.requested RecordModel.requests
  simp only [capabilities, Capabilities.contains_ofList]

/-- The names of the types that are generated for a statement. -/
def Source.Statement.typeNames (settings : Settings) : Statement → List Text
  | .definition head _ => head.requested.map (·.typeName settings head.role.name)
  | _ => []

/-- Two statements of which one gets a generated type of the name of one that the other gets. -/
def Source.Statement.ClashesWith (settings : Settings) : Statement → Statement → Prop
  | .definition first _, .definition second _ =>
    ∃ c ∈ first.requested, ∃ d ∈ second.requested,
      first.role.name ++ c.typeSuffix settings = second.role.name ++ d.typeSuffix settings
  | _, _ => False

theorem nodup_typeNames {settings : Settings} (accepted : settings.Accepted)
    (statement : Statement) : (statement.typeNames settings).Nodup := by
  cases statement with
  | simple above items ending => exact List.nodup_nil
  | compound clauses => exact List.nodup_nil
  | definition head body =>
    exact Capability.nodup_map_typeName accepted _ head.role.name

theorem disjoint_typeNames_iff {settings : Settings} {first second : Statement} :
    List.Disjoint (first.typeNames settings) (second.typeNames settings) ↔
      ¬ first.ClashesWith settings second := by
  cases first with
  | simple above items ending => simp [Statement.typeNames, Statement.ClashesWith]
  | compound clauses => simp [Statement.typeNames, Statement.ClashesWith]
  | definition head body =>
    cases second with
    | simple above items ending => simp [Statement.typeNames, Statement.ClashesWith]
    | compound clauses => simp [Statement.typeNames, Statement.ClashesWith]
    | definition other suite =>
      simp only [Statement.typeNames, Statement.ClashesWith, List.disjoint_left, List.mem_map]
      constructor
      · rintro disjoint ⟨c, requested, d, requested', same⟩
        exact disjoint ⟨c, requested, rfl⟩
          ⟨d, requested', (Capability.typeName_eq_iff.2 same).symm⟩
      · rintro apart name ⟨c, requested, rfl⟩ ⟨d, requested', same⟩
        exact apart ⟨c, requested, d, requested', Capability.typeName_eq_iff.1 same.symm⟩

/-- The types of all statements of a list differ in their names exactly if no two statements
clash. -/
theorem nodup_flatMap_typeNames_iff {settings : Settings} (accepted : settings.Accepted)
    (statements : List Statement) :
    (statements.flatMap (·.typeNames settings)).Nodup ↔
      statements.Pairwise fun first second => ¬ first.ClashesWith settings second := by
  rw [List.nodup_flatMap]
  constructor
  · rintro ⟨-, apart⟩
    exact apart.imp fun disjoint => disjoint_typeNames_iff.1 disjoint
  · intro apart
    exact ⟨fun statement _ => nodup_typeNames accepted statement,
      apart.imp fun unlike => disjoint_typeNames_iff.2 unlike⟩

/-! ## Names that are bound -/

theorem definition_of_becomesAt {model : RecordModel} {settings : Settings} {artifact : Artifact}
    {unit margin : Text} {statement : Statement} (accepted : settings.Accepted)
    (identifier : Text.isIdentifier model.typeName = true)
    (member : artifact ∈ synthesize model settings)
    (blank : ∀ x ∈ margin, Text.isIndent x = true)
    (becomes : artifact.BecomesAt unit margin statement) :
    ∃ head body, statement = .definition head body ∧ head.role.name = artifact.name := by
  have chars := Text.chars_of_isIdentifier identifier
  rcases becomes with ⟨read, separation, spliced, rfl⟩
  rcases definition_of_spliced accepted chars.1 chars.2 member blank spliced with
    ⟨head, body, rfl, named, -⟩
  exact ⟨_, body, rfl, named⟩

theorem boundNames_of_becomesAt {model : RecordModel} {settings : Settings} {artifact : Artifact}
    {unit margin : Text} {statement : Statement} (accepted : settings.Accepted)
    (identifier : Text.isIdentifier model.typeName = true)
    (member : artifact ∈ synthesize model settings)
    (blank : ∀ x ∈ margin, Text.isIndent x = true)
    (becomes : artifact.BecomesAt unit margin statement) :
    statement.boundNames = [artifact.name] := by
  rcases definition_of_becomesAt accepted identifier member blank becomes with
    ⟨head, body, rfl, named⟩
  rw [Statement.boundNames, named]

/-- The types among the artifacts of a model, one for each capability. -/
theorem map_name_besideClass (model : RecordModel) (settings : Settings) :
    ((synthesize model settings).filter (·.placement = .besideClass)).map (·.name) =
      model.requested.map (·.typeName settings model.typeName) := by
  unfold synthesize
  induction model.requested with
  | nil => rfl
  | cons first later ih =>
    rw [List.flatMap_cons, List.filter_append, List.map_append, ih, List.map_cons]
    cases first <;> rfl

theorem boundNames_of_forall₂ {unit margin : Text} {artifacts : List Artifact}
    {statements : List Statement}
    (become : List.Forall₂ (Artifact.BecomesAt unit margin) artifacts statements)
    (single : ∀ artifact ∈ artifacts, ∀ statement,
      artifact.BecomesAt unit margin statement → statement.boundNames = [artifact.name]) :
    boundNames statements = artifacts.map (·.name) := by
  induction become with
  | nil => rfl
  | cons first later ih =>
    rw [List.forall_mem_cons] at single
    unfold boundNames at ih ⊢
    rw [List.flatMap_cons, single.1 _ first, ih single.2]
    rfl

/-- What an accepted request leaves in place of its class binds the name of the class and the
names of the generated types. -/
theorem Request.boundNames_replacement {request : Request} {body : Suite}
    {written : List Statement} {model : RecordModel} {artifacts : List Artifact}
    (accepted : request.around.settings.Accepted)
    (identifier : Text.isIdentifier request.head.role.name = true)
    (verdict : request.verdict = .ok (model, artifacts))
    (replaced : request.replacement body = some written) :
    boundNames written = request.head.role.name ::
      request.head.requested.map (·.typeName request.around.settings request.head.role.name) := by
  rcases verdict_eq_ok_iff.1 verdict with ⟨shape, role, extracted, -, generated⟩
  rcases generate_eq_ok generated with ⟨rfl, -, -⟩
  have typeName : model.typeName = request.head.role.name := by
    rw [(extractClass_eq_ok extracted).1, role]
    rfl
  unfold replacement at replaced
  rw [verdict] at replaced
  rcases spliceClass_eq_some replaced with ⟨methods, types, -, beside, rfl⟩
  have blank : ∀ x ∈ request.site.margin, Text.isIndent x = true := by
    intro x member
    rw [List.eq_of_mem_replicate member]
    decide
  have names := boundNames_of_forall₂ beside fun artifact member statement becomes =>
    boundNames_of_becomesAt accepted (typeName ▸ identifier) (List.mem_filter.1 member).1 blank
      becomes
  rw [map_name_besideClass, requested_of_extracted extracted, typeName] at names
  unfold boundNames at names ⊢
  rw [List.flatMap_cons, names]
  rfl

/-- A statement that is walked over becomes statements that bind its names and those of its
generated types. -/
theorem boundNames_of_walk {around : Surroundings} {statement : Statement}
    {written : List Statement} (accepted : around.settings.Accepted)
    (identifiers : statement.Obeys identifierLaw)
    (clean : ∀ request ∈ statement.requests around, request.refusal = none)
    (walked : (statement.walk around).result = some written) :
    boundNames written = statement.boundNames ++ statement.typeNames around.settings := by
  cases statement with
  | simple above items ending =>
    cases walked
    simp [boundNames, Statement.typeNames]
  | compound clauses =>
    rcases Option.map_eq_some_iff.1 walked with ⟨expanded, -, rfl⟩
    rfl
  | definition head body =>
    rw [Statement.walk] at walked
    cases result : (body.walk (around.enter head.role)).result with
    | none =>
      unfold leaveDefinition at walked
      rw [result] at walked
      cases walked
    | some expanded =>
      cases annotated : head.annotated with
      | false =>
        rw [leaveDefinition_of_plain annotated result] at walked
        cases walked
        have nothing : head.capabilities = [] := by simpa [Definition.annotated] using annotated
        simp [boundNames, Statement.boundNames, Statement.typeNames, Definition.requested, nothing]
      | true =>
        rw [leaveDefinition_of_annotated annotated result] at walked
        have own := clean ⟨around, head, body⟩ (by simp [Statement.requests, annotated])
        cases verdict : Request.verdict ⟨around, head, body⟩ with
        | error diagnostic =>
          rw [Request.refusal_eq_some_iff.2 verdict] at own
          cases own
        | ok found =>
          have identifier : Text.isIdentifier head.role.name = true := identifiers.1
          exact Request.boundNames_replacement accepted identifier verdict walked

/-- Consecutive statements become statements that bind, in order, the names of each and those of
its generated types. -/
theorem boundNames_of_walkStatements {around : Surroundings} {statements written : List Statement}
    (accepted : around.settings.Accepted) (identifiers : StatementsObey identifierLaw statements)
    (clean : ∀ request ∈ requestsInStatements around statements, request.refusal = none)
    (walked : (walkStatements around statements).result = some written) :
    boundNames written = statements.flatMap fun statement =>
      statement.boundNames ++ statement.typeNames around.settings := by
  induction statements generalizing written with
  | nil =>
    cases walked
    rfl
  | cons first later ih =>
    rcases List.forall_mem_append.1 clean with ⟨cleanFirst, cleanLater⟩
    rcases Visit.andThen_eq_some walked with ⟨front, back, expanded, rest, rfl⟩
    have former := boundNames_of_walk accepted identifiers.1 cleanFirst expanded
    have latter := ih identifiers.2 cleanLater rest
    unfold boundNames at former latter ⊢
    rw [List.flatMap_append, List.flatMap_cons, former, latter]

/-- If expansion with accepted settings succeeds, every statement list of the file becomes one that
binds what it bound before and, behind each class, the types generated for it.  These types are all
different exactly if no two classes of the list clash. -/
theorem expand_typeNames {values : SettingValues} {settings : Settings} {code : Text}
    {filename : Option Text} {file : SourceFile} {expansion : Expansion} {list : StatementList}
    (accepted : Settings.check values = .ok settings)
    (parsed : SourceFile.parse? code = some file)
    (returned : expand settings code filename = .ok expansion) (succeeded : expansion.success = true)
    (member : list ∈ file.lists settings filename) :
    ∃ expanded, (walkStatements list.around list.body).result = some expanded ∧
      (boundNames expanded = list.body.flatMap fun statement =>
        statement.boundNames ++ statement.typeNames settings) ∧
      ((list.body.flatMap (·.typeNames settings)).Nodup ↔
        list.body.Pairwise fun first second => ¬ first.ClashesWith settings second) := by
  have fine := Settings.accepted_of_check accepted
  have within := SourceFile.within_of_mem member
  have same : list.around.settings = settings := within.sameFile.settings
  have clean := (success_expand_iff parsed returned).1 succeeded
  by_cases fit : ∀ request ∈ file.requests settings filename, request.Fits
  case neg =>
    rw [expand_of_unfit parsed fit] at returned
    cases returned
  case pos =>
    have settles := walkStatements_settles list.around list.body
    rcases Option.isSome_iff_exists.1
      (settles.ends.2 fun request inside => fit request (within.requests inside)) with
      ⟨expanded, walked⟩
    refine ⟨expanded, walked, ?_, nodup_flatMap_typeNames_iff fine list.body⟩
    have names := boundNames_of_walkStatements (same ▸ fine)
      (within.obeys identifierLaw (identifiers_of_parse? parsed))
      (fun request inside => clean request (within.requests inside)) walked
    rw [same] at names
    exact names

/-- Two classes of which the view of one has the name of the companion of the other. -/
def clashingClasses : Text :=
  "@destructure_ref\nclass P: x: A\n@destructure\nclass PView: y: A\n"

/-- Expansion of the example succeeds although two of the types it adds have the same name. -/
theorem expand_clashingClasses_typeNames : ∃ file expansion expanded,
    SourceFile.parse? clashingClasses = some file ∧
      expand .default clashingClasses none = .ok expansion ∧ expansion.success = true ∧
      (walkStatements (topOfFile .default none file) file.body).result = some expanded ∧
      (boundNames expanded = file.body.flatMap fun statement =>
        statement.boundNames ++ statement.typeNames .default) ∧
      ¬ file.body.Pairwise fun first second => ¬ first.ClashesWith .default second := by
  have repeated : ((SourceFile.parse? clashingClasses).any fun file =>
      !decide (file.body.flatMap (·.typeNames .default)).Nodup) = true := by decide +kernel
  have expands : (match expand .default clashingClasses none with
      | .ok expansion => expansion.success
      | .error _ => false) = true := by decide +kernel
  cases parsed : SourceFile.parse? clashingClasses with
  | none =>
    rw [parsed] at repeated
    cases repeated
  | some file =>
    rw [parsed] at repeated
    cases returned : expand .default clashingClasses none with
    | error fault =>
      rw [returned] at expands
      cases expands
    | ok expansion =>
      rw [returned] at expands
      rcases expand_typeNames Settings.check_empty parsed returned expands
        (List.mem_cons_self ..) with ⟨expanded, walked, names, distinct⟩
      refine ⟨file, expansion, expanded, rfl, rfl, expands, walked, names, ?_⟩
      rw [← distinct]
      simpa using repeated

end OpenRecord
