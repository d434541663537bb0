import OpenRecord.Proofs.Expansion.Leftovers
import OpenRecord.Proofs.Generation.Decorators
import OpenRecord.Proofs.Record.ClassBodies
import OpenRecord.Proofs.Source.Margins

namespace OpenRecord

/-!
# Expanding twice

An expanded file has nothing left to expand, at any depth, if no type expression of an expanded class
has a line that starts with an at sign.  Only the first line may do so, since something stands before
it wherever the type is written.

Without this condition an expanded file may ask for another expansion.  A type expression is written
as it stands, but its lines are indented anew at its new place, and they are taken apart at more
characters than a source file knows as line breaks.  A comment in a type that goes on behind such a
character becomes code.
-/

open Source

/-! ## Margins -/

theorem Source.mem_of_reindentStack {line : Indentation} {stack opened : List Indentation}
    (stacked : reindentStack line stack = some opened) :
    ∀ level ∈ opened, level = line ∨ level ∈ stack := by
  have closed : ∀ {stack opened : List Indentation},
      reindentStack.close line stack = some opened → opened <:+ stack := by
    intro stack opened
    induction stack with
    | nil => nofun
    | cons top below ih =>
      intro close
      rw [reindentStack.close] at close
      split at close
      · exact (ih close).trans (List.suffix_cons top below)
      · split at close <;> cases close
        exact List.suffix_refl _
  unfold reindentStack at stacked
  split at stacked
  · cases stacked
    simp
  · split at stacked
    · split at stacked <;> cases stacked
      exact fun level member => .inr member
    · split at stacked
      · split at stacked <;> cases stacked
        exact fun level member => List.mem_cons.1 member
      · exact fun level member => .inr ((closed stacked).subset member)

theorem Source.blank_of_logicalLines {usual : Text} {fuel number : Nat} {stack : List Indentation}
    {above : List BlankLine} {text : Text} {lines : List LogicalLine} {after : List BlankLine}
    (blank : ∀ level ∈ stack, ∀ x ∈ level.chars, Text.isIndent x = true)
    (scanned : logicalLines usual fuel number stack above text = some (lines, after)) :
    ∀ line ∈ lines, ∀ x ∈ line.indent, Text.isIndent x = true := by
  induction fuel generalizing number stack above text lines with
  | zero => cases scanned
  | succ fuel ih =>
    unfold logicalLines at scanned
    split at scanned
    · exact ih blank scanned
    · split at scanned
      · cases scanned
        simp
      · dsimp only at scanned
        split at scanned
        · cases scanned
        · cases scanned
        case h_3 top below stacked =>
          have opened : ∀ level ∈ top :: below, ∀ x ∈ level.chars, Text.isIndent x = true := by
            intro level member
            rcases mem_of_reindentStack stacked level member with rfl | before
            · rw [Indentation.chars_measure]
              exact fun x inside => List.all_eq_true.1 List.all_takeWhile x inside
            · exact blank level before
          split at scanned
          · cases scanned
          · cases scanned
          · split at scanned
            · cases scanned
            case h_2 later behind more =>
              cases scanned
              rw [List.forall_mem_cons]
              exact ⟨opened top (List.mem_cons_self ..), ih opened more⟩

theorem Source.SourceFile.blank_defaultIndent {text : Text} {file : SourceFile}
    (parsed : SourceFile.parse? text = some file) :
    ∀ x ∈ file.defaultIndent, Text.isIndent x = true := by
  unfold SourceFile.parse? at parsed
  rcases Option.bind_eq_some_iff.1 parsed with ⟨⟨lines, after⟩, scanned, parsed⟩
  rcases Option.bind_eq_some_iff.1 parsed with ⟨⟨header, body, footer⟩, -, same⟩
  cases same
  change ∀ x ∈ firstIndent lines, _
  have blank := blank_of_logicalLines (by simp) scanned
  unfold firstIndent
  split
  case h_1 line found => exact blank line (List.mem_of_find?_eq_some found)
  case h_2 =>
    have spaces : [' ', ' ', ' ', ' '].all Text.isIndent = true := by decide
    exact List.all_eq_true.1 spaces

theorem Request.blank_margin {request : Request} (placement : Placement)
    (unit : ∀ x ∈ request.around.unit, Text.isIndent x = true) :
    ∀ x ∈ request.margin placement, Text.isIndent x = true := by
  have spaces : ∀ x ∈ List.replicate request.head.position.column ' ', Text.isIndent x = true := by
    intro x member
    rw [List.eq_of_mem_replicate member]
    rfl
  cases placement with
  | besideClass => exact spaces
  | inClass => exact List.forall_mem_append.2 ⟨spaces, unit⟩

/-! ## Artifacts at their places -/

theorem Source.DecoratesOnly.mono {allowed wider : Expression → Prop} {fresh : Bool} {text : Text}
    (weaker : ∀ value, allowed value → wider value) (decorates : DecoratesOnly allowed fresh text) :
    DecoratesOnly wider fresh text := by
  induction text generalizing fresh with
  | nil => trivial
  | cons c rest ih =>
    rw [DecoratesOnly] at decorates ⊢
    split
    case isTrue ends => exact ih (by rwa [if_pos ends] at decorates)
    case isFalse ends =>
      rw [if_neg ends] at decorates
      split
      case isTrue blank => exact ih (by rwa [if_pos blank] at decorates)
      case isFalse blank =>
        rw [if_neg blank] at decorates
        refine ⟨fun start sign => ?_, ih decorates.2⟩
        rcases decorates.1 start sign with ⟨line, fine, others⟩
        exact ⟨line, weaker _ fine, others⟩

/-- Decorators of generated code request nothing. -/
theorem Source.Expression.Emitted.capability_eq_none {value : Expression} (emitted : value.Emitted) :
    value.capability = none := by
  cases emitted with
  | dataclass => decide
  | classmethod => decide
  | property => decide
  | setter name =>
    cases name with
    | nil => decide
    | cons first later =>
      have last : (Expression.attribute (.name (first :: later)) "setter").lastSegment =
          ("setter" : Text) := by
        simp [Expression.lastSegment, Expression.dottedName, Text.afterLast]
      change Capability.ofLabel? (Expression.lastSegment _) = none
      rw [last]
      decide

/-- If all decorators in the text of an artifact are allowed wherever it is put, they are allowed in
the statement that it is read as at its place. -/
theorem obeys_of_spliced {allowed : Expression → Prop} {unit margin : Text} {artifact : Artifact}
    {statement : Statement} {headline : Headline} {rest : Text}
    (decorates : DecoratesOnly allowed true (Code.reindent artifact.code unit margin))
    (headed : artifact.code = headline.text [] ++ rest)
    (read : spliced unit margin artifact = some statement) :
    statement.Obeys (decoratorLaw allowed) := by
  unfold spliced at read
  dsimp only at read
  split at read
  case isTrue atMargin =>
    refine decorates.obeys_of_parse? ?_ read
    rcases headline.reindent_append unit margin rest with ⟨tail, written⟩
    rw [headed, written, atMargin]
    exact headline.withoutByteOrderMark_text tail
  case isFalse =>
    rcases Option.bind_eq_some_iff.1 read with ⟨outer, parsed, first⟩
    have host : DecoratesLine allowed ("class _:" : Text) := by
      rintro rest sign
      cases sign
    have unbroken : ("class _:" : Text).all (!Text.isBreak ·) = true := by decide
    have whole : DecoratesOnly allowed true
        (hostHeader ++ Code.reindent artifact.code unit margin) :=
      host.above (by simpa using unbroken) decorates
    have lawful := whole.obeys_of_parse? rfl parsed
    unfold firstOfBlock at first
    split at first
    · cases first
      exact lawful.2.2.1
    · cases first

/-! ## Models of requests -/

mutual

theorem Source.Statement.obeys_of_mem {law : TreeLaw} {request : Request} (around : Surroundings) :
    ∀ statement : Statement, statement.Obeys law → request ∈ statement.requests around →
      law.role request.head.role ∧ request.body.Obeys law
  | .simple _ _ _, _, member => by simp [Statement.requests] at member
  | .definition head body, lawful, member => by
    rcases List.mem_append.1 member with inner | own
    · exact body.obeys_of_mem _ lawful.2.2 inner
    · split at own
      · rw [List.mem_singleton.1 own]
        exact ⟨lawful.1, lawful.2.2⟩
      · cases own
  | .compound clauses, lawful, member => obeys_of_mem_clauses around clauses lawful member

theorem Source.Suite.obeys_of_mem {law : TreeLaw} {request : Request} (around : Surroundings) :
    ∀ suite : Suite, suite.Obeys law → request ∈ suite.requests around →
      law.role request.head.role ∧ request.body.Obeys law
  | .inline _ _, _, member => by simp [Suite.requests] at member
  | .block _ _ body _, lawful, member => obeys_of_mem_statements _ body lawful member
  | .cases _ _ clauses _, lawful, member => obeys_of_mem_clauses around clauses lawful member

theorem Source.Clause.obeys_of_mem {law : TreeLaw} {request : Request} (around : Surroundings) :
    ∀ clause : Clause, clause.Obeys law → request ∈ clause.requests around →
      law.role request.head.role ∧ request.body.Obeys law
  | .clause _ _ _ suite, lawful, member => suite.obeys_of_mem around lawful member

theorem obeys_of_mem_statements {law : TreeLaw} {request : Request} (around : Surroundings) :
    ∀ statements : List Statement, StatementsObey law statements →
      request ∈ requestsInStatements around statements →
        law.role request.head.role ∧ request.body.Obeys law
  | [], _, member => by simp [requestsInStatements] at member
  | first :: later, lawful, member => by
    rcases List.mem_append.1 member with front | back
    · exact first.obeys_of_mem around lawful.1 front
    · exact obeys_of_mem_statements around later lawful.2 back

theorem obeys_of_mem_clauses {law : TreeLaw} {request : Request} (around : Surroundings) :
    ∀ clauses : List Clause, ClausesObey law clauses →
      request ∈ requestsInClauses around clauses →
        law.role request.head.role ∧ request.body.Obeys law
  | [], _, member => by simp [requestsInClauses] at member
  | first :: later, lawful, member => by
    rcases List.mem_append.1 member with front | back
    · exact first.obeys_of_mem around lawful.1 front
    · exact obeys_of_mem_clauses around later lawful.2 back

end

/-- The model of a request in a file has names for the class and for its fields. -/
theorem spelled_of_verdict {text : Text} {file : SourceFile} {settings : Settings}
    {filename : Option Text} {request : Request} {model : RecordModel} {artifacts : List Artifact}
    (parsed : SourceFile.parse? text = some file)
    (member : request ∈ file.requests settings filename)
    (verdict : request.verdict = .ok (model, artifacts)) : model.Spelled := by
  rcases Request.verdict_eq_ok_iff.1 verdict with ⟨shape, role, extracted, -, -⟩
  rcases extractClass_eq_ok extracted with ⟨typeName, -, -, fields, -⟩
  have identifier : Text.isIdentifier request.head.role.name = true :=
    (obeys_of_mem_statements _ file.body (identifiers_of_parse? parsed) member).1
  have declared := (obeys_of_mem_statements _ file.body
    (obeys_of_parse? declarationLaw_allowsLines parsed) member).2
  rw [role] at identifier
  refine ⟨typeName ▸ identifier, fun field among => ?_⟩
  rw [fields] at among
  rcases exists_entry_of_mem_fieldsFrom among with ⟨type, typeTokens, entry⟩
  exact spelled_of_mem_entries declared entry

/-- If the type expressions of its model are steady, the artifacts of an accepted request are read as
statements that request nothing. -/
theorem splicesQuietly_of_steadyTypes {values : SettingValues} {settings : Settings} {text : Text}
    {file : SourceFile} {filename : Option Text} {request : Request}
    (accepted : Settings.check values = .ok settings) (parsed : SourceFile.parse? text = some file)
    (member : request ∈ file.requests settings filename)
    (steady : ∀ model artifacts, request.verdict = .ok (model, artifacts) → model.SteadyTypes) :
    request.SplicesQuietly := by
  intro model artifacts verdict artifact among statement read
  have fine := Settings.accepted_of_check accepted
  have same := SourceFile.sameFile_of_mem member
  have settingsOfFile : request.around.settings = settings := same.settings
  have unit : request.around.unit = file.defaultIndent := same.unit
  have spelled := spelled_of_verdict parsed member verdict
  have chars := Text.chars_of_isIdentifier spelled.typeName
  rcases Request.verdict_eq_ok_iff.1 verdict with ⟨shape, role, extracted, -, generated⟩
  rcases generate_eq_ok generated with ⟨rfl, -, -⟩
  rw [settingsOfFile] at among
  have unitBlank : ∀ x ∈ request.around.unit, Text.isIndent x = true := by
    rw [unit]
    exact SourceFile.blank_defaultIndent parsed
  have emitted := (steady_of_mem_synthesize fine spelled (steady _ _ verdict) among).decoratesOnly
    unitBlank (Request.blank_margin artifact.placement unitBlank)
  rcases artifact.exists_headline fine chars.1 chars.2 among with ⟨headline, rest, headed, -, -⟩
  exact obeys_of_spliced (emitted.mono fun _ => Expression.Emitted.capability_eq_none) headed read

/-! ## The second expansion -/

/-- **Expanding twice.**  If expansion with accepted settings succeeds, the tree that is printed
contains no definition, at any depth, that requests a capability exactly if the artifacts of all
requests are read at their places as statements in which nothing is requested; and so they are if no
type expression of an expanded class has a line that starts with an at sign, its first line apart.
Expanding such a tree again, with any settings, reports nothing, collects no model and no artifact,
and leaves the tree as it is.  In any case no import that the models require is missing in it. -/
theorem expand_complete_iff {values : SettingValues} {settings : Settings} {code : Text}
    {filename : Option Text} {file : SourceFile} {expansion : Expansion}
    (accepted : Settings.check values = .ok settings)
    (parsed : SourceFile.parse? code = some file)
    (returned : expand settings code filename = .ok expansion)
    (succeeded : expansion.success = true) :
    ∃ finished : SourceFile, expansion.code = finished.print ∧
      (StatementsObey quietLaw finished.body ↔
        ∀ request ∈ file.requests settings filename, request.SplicesQuietly) ∧
      ((∀ model ∈ expansion.models, model.SteadyTypes) →
        StatementsObey quietLaw finished.body) ∧
      (StatementsObey quietLaw finished.body → ∀ settings' filename',
        finished.visit settings' filename' = ⟨[], some finished.body⟩ ∧
          ∀ code', finishExpansion settings' code' finished (finished.visit settings' filename') =
            .ok ⟨finished.print, [], [], []⟩) ∧
      (settings.injectImports = true →
        addImports (requiredImports expansion.models) finished = some (finished, [])) := by
  rcases expand_quiet_iff parsed returned succeeded with ⟨finished, printed, quiet_iff, imported⟩
  rcases expand_of_success parsed returned succeeded with
    ⟨-, _, accounts, _, _, -, verdicts, -, same⟩
  have models := congrArg Expansion.models same
  refine ⟨finished, printed, quiet_iff, fun steady => ?_, fun quiet settings' filename' => ?_,
    imported⟩
  · refine quiet_iff.2 fun request member => ?_
    refine splicesQuietly_of_steadyTypes accepted parsed member fun model artifacts verdict => ?_
    have among : request.verdict ∈ accounts.map .ok := verdicts ▸ List.mem_map_of_mem member
    rcases List.mem_map.1 among with ⟨found, inside, same⟩
    cases same.trans verdict
    exact steady model (models ▸ List.mem_map_of_mem inside)
  · have visit := SourceFile.visit_of_no_request
      (SourceFile.requests_of_quiet quiet settings' filename')
    refine ⟨visit, fun code' => ?_⟩
    rw [visit]
    rfl

/-- A class whose field has a type on two lines. -/
def longType : Text :=
  "@destructure_ref\nclass P:\n    x: dict[str,\n        int]\n"

/-- The example is expanded, and nothing is left to expand. -/
theorem expand_longType_complete : ∃ (file finished : SourceFile) (expansion : Expansion),
    SourceFile.parse? longType = some file ∧ expand .default longType none = .ok expansion ∧
      expansion.success = true ∧ (∀ model ∈ expansion.models, model.SteadyTypes) ∧
      expansion.models ≠ [] ∧ expansion.code = finished.print ∧
      StatementsObey quietLaw finished.body ∧
      finished.visit .default none = ⟨[], some finished.body⟩ := by
  have readable : (SourceFile.parse? longType).isSome = true := by decide +kernel
  have expands : (match expand .default longType none with
      | .ok expansion => expansion.success && !expansion.models.isEmpty &&
        decide (∀ model ∈ expansion.models, model.SteadyTypes)
      | .error _ => false) = true := by decide +kernel
  rcases Option.isSome_iff_exists.1 readable with ⟨file, parsed⟩
  cases returned : expand .default longType none with
  | error fault =>
    rw [returned] at expands
    cases expands
  | ok expansion =>
    rw [returned] at expands
    simp only [Bool.and_eq_true, decide_eq_true_eq] at expands
    rcases expands with ⟨⟨succeeded, some_model⟩, steady⟩
    rcases expand_complete_iff Settings.check_empty parsed returned succeeded with
      ⟨finished, printed, -, quiet, again, -⟩
    exact ⟨file, finished, expansion, parsed, rfl, succeeded, steady, by simpa using some_model,
      printed, quiet steady, (again (quiet steady) .default none).1⟩

end OpenRecord
