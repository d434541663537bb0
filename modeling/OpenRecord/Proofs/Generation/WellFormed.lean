import OpenRecord.Proofs.Expansion.StatementLists
import OpenRecord.Proofs.Generation.ReadableArtifacts
import OpenRecord.Proofs.Record.ClassBodies

namespace OpenRecord

/-!
# When generation refuses its own code

Generation ends with artifacts, each of which is one statement, or with a single diagnostic.  The
check of the emitted code comes last, so that its diagnostic only concerns models with nothing else
against them.

Nothing that is checked before makes the name of a generated type a name of the language.  An affix
only has to fit into an identifier behind a letter, so that the prefix, which the names start with,
may start with a digit; and no name is compared with the reserved words.  Code with such a name in
its headline is no statement, whatever types and bodies follow.  Code whose names are in order is a
statement, if the types that it takes over from the class can be read where they are put.
-/

open Source

/-! ## Names -/

def nameLaw : TreeLaw :=
  ⟨fun role => role.name.IsName, fun _ => True, fun _ => True⟩

theorem nameLaw_allowsLines : nameLaw.AllowsLines := by
  intro tokens spelled amongCases read readable
  cases read with
  | items found => exact trivial
  | header head front found =>
    cases head with
    | decorator value => exact ⟨trivial, trivial⟩
    | clause kind => exact trivial
    | definition role =>
      cases headsLine_of_readLine readable with
      | definition member => exact ⟨spelled _ member rfl, trivial⟩

/-- A single statement that was read obeys every law that allows its lines. -/
theorem Source.Statement.obeys_of_parse? {law : TreeLaw} {text : Text} {statement : Statement}
    (allows : law.AllowsLines) (parsed : Statement.parse? text = some statement) :
    statement.Obeys law := by
  unfold Statement.parse? at parsed
  rcases Option.bind_eq_some_iff.1 parsed with ⟨⟨lines, after⟩, scanned, parsed⟩
  rcases Option.bind_eq_some_iff.1 parsed with ⟨⟨header, body, footer⟩, read, only⟩
  have lawful := obeys_readStatements
    (fun line member => allows line.tokens (logicalLines_spelled scanned line member)) read
  split at only
  · case h_1 same =>
    cases same
    cases only
    exact lawful.1
  · cases only

/-- A name between a prefix that is not empty and a suffix starts with the prefix, and is an
identifier if the prefix is one. -/
theorem Capability.isIdentifier_typeName {settings : Settings} (accepted : settings.Accepted)
    (nonempty : settings.companionPrefix ≠ []) {name : Text}
    (chars : ∀ x ∈ name, Text.isNameContinue x = true) (capability : Capability) :
    Text.isIdentifier (capability.typeName settings name) =
      Text.isIdentifier settings.companionPrefix := by
  have letters := capability.typeName_chars accepted chars
  have front := accepted.prefix_chars
  rw [typeName_eq] at letters ⊢
  cases prefixed : settings.companionPrefix with
  | nil => exact absurd prefixed nonempty
  | cons first later =>
    rw [prefixed, List.cons_append, List.forall_mem_cons] at letters
    rw [prefixed, List.forall_mem_cons] at front
    have whole : (later ++ (name ++ capability.typeSuffix settings)).all Text.isNameContinue = true :=
      List.all_eq_true.2 letters.2
    have part : later.all Text.isNameContinue = true := List.all_eq_true.2 front.2
    rw [List.cons_append, Text.isIdentifier, Text.isIdentifier, whole, part]

theorem Settings.companionPrefix_ne_nil {values : SettingValues} {settings : Settings}
    (checked : Settings.check values = .ok settings) : settings.companionPrefix ≠ [] :=
  ((Settings.isChecked_of_check checked).solid _ List.mem_cons_self).1

theorem Artifact.definesAs_of_parse? {model : RecordModel} {settings : Settings}
    {artifact : Artifact} (accepted : settings.Accepted)
    (identifier : Text.isIdentifier model.typeName = true)
    (member : artifact ∈ synthesize model settings) {statement : Statement}
    (parsed : Statement.parse? artifact.code = some statement) :
    artifact.name.IsName ∧ ∃ decorator, statement.DefinesAs artifact.name decorator := by
  have chars := Text.chars_of_isIdentifier identifier
  rcases artifact.exists_headline accepted chars.1 chars.2 member with
    ⟨headline, rest, written, named, -⟩
  have lawful := Statement.obeys_of_parse? nameLaw_allowsLines parsed
  rw [written] at parsed
  have defines := headline.definesAs_of_parse? parsed
  rw [named] at defines
  refine ⟨?_, headline.value, defines⟩
  rcases defines with ⟨head, body, rfl, role, -⟩
  exact role ▸ lawful.1

theorem exists_typeArtifact {model : RecordModel} (settings : Settings) {capability : Capability}
    (requested : capability ∈ model.requested) :
    ∃ artifact ∈ synthesize model settings,
      artifact.name = capability.typeName settings model.typeName := by
  have own : ∃ artifact ∈ capabilityArtifacts model settings capability,
      artifact.name = capability.typeName settings model.typeName := by
    cases capability <;> exact ⟨_, List.mem_cons_self .., rfl⟩
  rcases own with ⟨artifact, generated, named⟩
  exact ⟨artifact, List.mem_flatMap.2 ⟨capability, requested, generated⟩, named⟩

/-! ## Kinds of diagnostics -/

theorem RecordModel.kind_of_firstClash {model : RecordModel} {settings : Settings}
    {scope : Option (List Text)} {cause : Cause}
    (clash : model.firstClash settings scope = some cause) : cause.kind = .namingCollision := by
  simp only [firstClash, Option.or_eq_some_iff, Option.map_eq_some_iff] at clash
  rcases clash with ⟨_, -, rfl⟩ | ⟨-, spelling | ⟨-, field | ⟨-, ⟨_, -, rfl⟩ | ⟨-, _, -, rfl⟩⟩⟩⟩
  · rfl
  · rcases List.exists_of_findSome?_eq_some spelling with ⟨name, -, reserved⟩
    unfold reservedSpelling at reserved
    split at reserved <;> cases reserved <;> rfl
  · rcases List.exists_of_findSome?_eq_some field with ⟨name, -, taken⟩
    unfold fieldClash at taken
    split at taken
    · cases taken
      rfl
    · split at taken
      · cases taken
        rfl
      · split at taken <;> cases taken
        rfl
  · rfl
  · rfl

/-! ## Generation -/

/-- A model with nothing against it but perhaps its code: it does not ask for mutation alone, and
none of its names clashes. -/
structure RecordModel.Unopposed (model : RecordModel) (settings : Settings)
    (scope : Option (List Text)) : Prop where
  accompanied : model.requests .mutation = true → model.requests .destructure = true
  apart : model.firstClash settings scope = none

/-- Generation for a model that something else than its code is against. -/
theorem generate_of_opposed {model : RecordModel} {settings : Settings}
    {scope : Option (List Text)} (opposed : ¬model.Unopposed settings scope) :
    ∃ diagnostic, generate model settings scope = .error diagnostic ∧
      diagnostic.cause.kind ∈ [.missingCapability, .namingCollision] := by
  unfold generate RecordModel.checkNames
  by_cases alone : (model.requests .mutation && !model.requests .destructure) = true
  · rw [if_pos alone]
    exact ⟨_, rfl, List.mem_cons_self ..⟩
  · rw [if_neg alone]
    cases clash : model.firstClash settings scope with
    | some cause =>
      refine ⟨_, rfl, ?_⟩
      rw [RecordModel.kind_of_firstClash clash]
      exact List.mem_cons_of_mem _ (List.mem_cons_self ..)
    | none =>
      refine absurd ⟨fun mutation => ?_, clash⟩ opposed
      simpa [mutation] using alone

/-- Generation for a model that nothing else is against: all artifacts if they are statements, and
else a diagnostic that names the first one that is none. -/
theorem generate_of_unopposed {model : RecordModel} {settings : Settings}
    {scope : Option (List Text)} (unopposed : model.Unopposed settings scope) :
    generate model settings scope =
      match (synthesize model settings).find? (!·.wellFormed) with
      | some artifact =>
        .error ⟨.malformedArtifact artifact.kind.label artifact.name, some model.typeName,
          model.location⟩
      | none => .ok (synthesize model settings) := by
  have together : ¬(model.requests .mutation && !model.requests .destructure) = true := by
    simpa using unopposed.accompanied
  unfold generate RecordModel.checkNames
  rewrite [if_neg together, unopposed.apart]
  rfl

/-- What generation comes to for a statement: the artifacts of its model, or the diagnostic of the
first stage that refuses it. -/
def Source.Statement.generated (statement : Statement) (settings : Settings)
    (scope : Option (List Text)) (location : Option Location) : Except Diagnostic (List Artifact) :=
  match extract statement location with
  | .error diagnostic => .error diagnostic
  | .ok model => generate model settings scope

/-- Generation refuses its own code exactly if nothing else is against the model and an artifact is no
statement. -/
theorem kind_generate_iff (model : RecordModel) (settings : Settings)
    (scope : Option (List Text)) :
    (∃ diagnostic, generate model settings scope = .error diagnostic ∧
        diagnostic.cause.kind = .generation) ↔
      model.Unopposed settings scope ∧
        ∃ artifact ∈ synthesize model settings, Statement.parse? artifact.code = none := by
  by_cases unopposed : model.Unopposed settings scope
  · rw [generate_of_unopposed unopposed]
    cases found : (synthesize model settings).find? (!·.wellFormed) with
    | some artifact =>
      have malformed : Statement.parse? artifact.code = none := by
        simpa [Artifact.wellFormed] using List.find?_some found
      exact iff_of_true ⟨_, rfl, rfl⟩
        ⟨unopposed, artifact, List.mem_of_find?_eq_some found, malformed⟩
    | none =>
      refine iff_of_false (fun ⟨_, refused, _⟩ => by cases refused) ?_
      rintro ⟨-, artifact, member, malformed⟩
      have formed : Statement.parse? artifact.code ≠ none := by
        simpa [Artifact.wellFormed] using List.find?_eq_none.1 found artifact member
      exact formed malformed
  · rcases generate_of_opposed unopposed with ⟨diagnostic, refused, kind⟩
    refine iff_of_false ?_ fun ⟨holds, _⟩ => unopposed holds
    rintro ⟨other, same, own⟩
    cases refused.symm.trans same
    rw [own] at kind
    simp at kind

theorem kind_of_generate {model : RecordModel} {settings : Settings} {scope : Option (List Text)}
    {diagnostic : Diagnostic} (refused : generate model settings scope = .error diagnostic) :
    diagnostic.cause.kind ∈ [.missingCapability, .namingCollision, .generation] := by
  by_cases unopposed : model.Unopposed settings scope
  · rw [generate_of_unopposed unopposed] at refused
    split at refused <;> cases refused
    exact List.mem_cons_of_mem _ (List.mem_cons_of_mem _ (List.mem_cons_self ..))
  · rcases generate_of_opposed unopposed with ⟨other, same, kind⟩
    cases refused.symm.trans same
    simp only [List.mem_cons, List.not_mem_nil, or_false] at kind ⊢
    rcases kind with kind | kind <;> simp [kind]

/-- The class and the fields of an extracted model have names of the language. -/
theorem isName_of_extract {text : Text} {file : SourceFile} {settings : Settings}
    {filename : Option Text} {list : StatementList} {statement : Statement}
    {location : Option Location} {model : RecordModel}
    (parsed : SourceFile.parse? text = some file) (among : list ∈ file.lists settings filename)
    (member : statement ∈ list.body) (extracted : extract statement location = .ok model) :
    model.typeName.IsName ∧ ∀ field ∈ model.fields, field.name.IsName := by
  have obeys : ∀ law : TreeLaw, law.AllowsLines → statement.Obeys law := fun law allows =>
    statementsObey_iff.1 ((SourceFile.within_of_mem among).obeys law (obeys_of_parse? allows parsed))
      statement member
  have named := obeys nameLaw nameLaw_allowsLines
  have declared := obeys declarationLaw declarationLaw_allowsLines
  unfold extract at extracted
  split at extracted
  case h_1 head body =>
    split at extracted
    case h_1 shape role =>
      have own : head.role.name.IsName := named.1
      rw [role] at own
      rcases extractClass_eq_ok extracted with ⟨typeName, -, -, fields, -⟩
      refine ⟨typeName ▸ own, fun field inside => ?_⟩
      rw [fields] at inside
      rcases exists_entry_of_mem_fieldsFrom inside with ⟨type, typeTokens, entry⟩
      exact spelled_of_mem_entries declared.2.2 entry
    · cases extracted
  · cases extracted

/-- The name of a generated type is no name of the language if the prefix is no identifier, or if it
is a reserved word. -/
theorem not_isName_typeName_iff {values : SettingValues} {settings : Settings}
    (checked : Settings.check values = .ok settings) {name : Text} (named : name.IsName)
    (capability : Capability) :
    ¬(capability.typeName settings name).IsName ↔
      Text.isIdentifier settings.companionPrefix = false ∨
        Keyword.ofText? (capability.typeName settings name) ≠ none := by
  have chars := Text.chars_of_isIdentifier named.1
  have identifier := capability.isIdentifier_typeName (Settings.accepted_of_check checked)
    (Settings.companionPrefix_ne_nil checked) chars.2
  rw [Text.IsName, identifier, not_and_or, Bool.not_eq_true]

/-- All artifacts of a readable model whose generated types have names of the language are
statements. -/
theorem exists_statement_of_mem_synthesize {model : RecordModel} {settings : Settings}
    (accepted : settings.Accepted) (readable : model.Readable)
    (named : ∀ capability ∈ model.requested, (capability.typeName settings model.typeName).IsName)
    {artifact : Artifact} (member : artifact ∈ synthesize model settings) :
    ∃ statement, Statement.parse? artifact.code = some statement := by
  rcases List.mem_flatMap.1 member with ⟨capability, requested, generated⟩
  exact (readable_of_mem_capabilityArtifacts readable accepted (named capability requested)
    generated).exists_statement

section Misnamed

variable {values : SettingValues} {settings : Settings} {model : RecordModel}
  {scope : Option (List Text)} (checked : Settings.check values = .ok settings)

include checked

/-- Generation refuses its own code if nothing is against the model but the name of a generated
type. -/
theorem kind_generate_of_misnamed (called : model.typeName.IsName)
    (unopposed : model.Unopposed settings scope)
    (misnamed : ∃ capability ∈ model.requested, Text.isIdentifier settings.companionPrefix = false ∨
      Keyword.ofText? (capability.typeName settings model.typeName) ≠ none) :
    ∃ diagnostic, generate model settings scope = .error diagnostic ∧
      diagnostic.cause.kind = .generation := by
  rcases misnamed with ⟨capability, requested, improper⟩
  refine (kind_generate_iff model settings scope).2 ⟨unopposed, ?_⟩
  rcases exists_typeArtifact settings requested with ⟨artifact, inside, named⟩
  refine ⟨artifact, inside, Option.eq_none_iff_forall_ne_some.2 fun read readable => ?_⟩
  have accepted := Settings.accepted_of_check checked
  have proper := (artifact.definesAs_of_parse? accepted called.1 inside readable).1
  rw [named] at proper
  exact (not_isName_typeName_iff checked called capability).2 improper proper

/-- Of a readable model an artifact is no statement only if a generated type is misnamed. -/
theorem misnamed_of_unread (readable : model.Readable) {artifact : Artifact}
    (inside : artifact ∈ synthesize model settings) (unread : Statement.parse? artifact.code = none) :
    ∃ capability ∈ model.requested, Text.isIdentifier settings.companionPrefix = false ∨
      Keyword.ofText? (capability.typeName settings model.typeName) ≠ none := by
  by_contra proper
  have named : ∀ capability ∈ model.requested,
      (capability.typeName settings model.typeName).IsName := by
    intro capability requested
    by_contra unnamed
    exact proper ⟨capability, requested,
      (not_isName_typeName_iff checked readable.typeName capability).1 unnamed⟩
  have accepted := Settings.accepted_of_check checked
  rcases exists_statement_of_mem_synthesize accepted readable named inside with ⟨statement, read⟩
  rw [unread] at read
  cases read

end Misnamed

/-- Every statement of a file that was read, at any depth, is refused by extraction or generation or
brings in artifacts that define their names, which are names of the language.  Generation refuses its
own code exactly if nothing else is against the model and some artifact is no statement; and it does
so if nothing else is against the model but the prefix of its types is no identifier, or one of them
has a reserved word for a name.  If the types of the fields and the header can be read where they are
put, it does so in no other case. -/
theorem generated_ends {values : SettingValues} {settings : Settings} {text : Text}
    {file : SourceFile} {filename : Option Text} {list : StatementList} {statement : Statement}
    (checked : Settings.check values = .ok settings) (parsed : SourceFile.parse? text = some file)
    (among : list ∈ file.lists settings filename) (member : statement ∈ list.body)
    (location : Option Location) (scope : Option (List Text)) :
    (∀ diagnostic, statement.generated settings scope location = .error diagnostic →
      diagnostic.cause.kind ∈
        [.unsupportedShape, .missingCapability, .namingCollision, .generation]) ∧
    (∀ artifacts, statement.generated settings scope location = .ok artifacts →
      ∀ artifact ∈ artifacts, artifact.name.IsName ∧
        ∃ read decorator, Statement.parse? artifact.code = some read ∧
          read.DefinesAs artifact.name decorator) ∧
    ∀ model, extract statement location = .ok model →
      ((∃ diagnostic, statement.generated settings scope location = .error diagnostic ∧
          diagnostic.cause.kind = .generation) ↔
        model.Unopposed settings scope ∧
          ∃ artifact ∈ synthesize model settings, Statement.parse? artifact.code = none) ∧
      (model.Unopposed settings scope →
        (∃ capability ∈ model.requested, Text.isIdentifier settings.companionPrefix = false ∨
          Keyword.ofText? (capability.typeName settings model.typeName) ≠ none) →
        ∃ diagnostic, statement.generated settings scope location = .error diagnostic ∧
          diagnostic.cause.kind = .generation) ∧
      (model.Phrased →
        ((∃ diagnostic, statement.generated settings scope location = .error diagnostic ∧
            diagnostic.cause.kind = .generation) ↔
          model.Unopposed settings scope ∧
            ∃ capability ∈ model.requested, Text.isIdentifier settings.companionPrefix = false ∨
              Keyword.ofText? (capability.typeName settings model.typeName) ≠ none)) := by
  have accepted := Settings.accepted_of_check checked
  cases extracted : extract statement location with
  | error diagnostic =>
    have result : statement.generated settings scope location = .error diagnostic := by
      rw [Statement.generated, extracted]
    refine ⟨fun other same => ?_, fun artifacts same => ?_, nofun⟩
    · cases result.symm.trans same
      rw [kind_of_extract extracted]
      exact List.mem_cons_self ..
    · cases result.symm.trans same
  | ok model =>
    have result : statement.generated settings scope location = generate model settings scope := by
      rw [Statement.generated, extracted]
    rcases isName_of_extract parsed among member extracted with ⟨called, fields⟩
    rw [result]
    have misnamed := @kind_generate_of_misnamed _ _ model scope checked called
    refine ⟨fun diagnostic refused => List.mem_cons_of_mem _ (kind_of_generate refused),
      fun artifacts returned artifact inside => ?_, fun other same => ?_⟩
    · rcases generate_eq_ok returned with ⟨rfl, -, formed⟩
      rcases Option.isSome_iff_exists.1 (formed artifact inside) with ⟨read, readable⟩
      rcases artifact.definesAs_of_parse? accepted called.1 inside readable with
        ⟨named, decorator, defines⟩
      exact ⟨named, read, decorator, readable, defines⟩
    · cases same
      have refuses := kind_generate_iff model settings scope
      refine ⟨refuses, misnamed, fun phrased =>
        ⟨fun refused => ?_, fun ⟨unopposed, unnamed⟩ => misnamed unopposed unnamed⟩⟩
      rcases refuses.1 refused with ⟨unopposed, artifact, inside, unread⟩
      exact ⟨unopposed, misnamed_of_unread checked ⟨phrased, called, fields⟩ inside unread⟩

def plainClass : Text :=
  "@destructure\nclass P: x: A\n"

/-- A digit as the prefix of generated types. -/
def digitPrefix : SettingValues :=
  { SettingValues.empty with companionPrefix := some (.string "1") }

/-- Whether a statement asks for a companion and has nothing against it but perhaps its code. -/
def Source.Statement.isUnopposed (settings : Settings) (statement : Statement) : Bool :=
  (extract statement none).toOption.any fun model =>
    model.requests .destructure && (model.firstClash settings none).isNone

/-- The digit is accepted, and generation refuses its own code for the class. -/
theorem plainClass_generated_ends : ∃ settings file statement model diagnostic,
    Settings.check digitPrefix = .ok settings ∧ SourceFile.parse? plainClass = some file ∧
      file.body = [statement] ∧ extract statement none = .ok model ∧
      model.Unopposed settings none ∧
      statement.generated settings none none = .error diagnostic ∧
      diagnostic.cause.kind = .generation := by
  have checked : Settings.check digitPrefix = .ok ⟨"1", "Ref", "View", true⟩ := by decide +kernel
  have readable : ((SourceFile.parse? plainClass).any fun file =>
      file.body.length == 1 &&
        file.body.all (·.isUnopposed ⟨"1", "Ref", "View", true⟩)) = true := by decide +kernel
  cases parsed : SourceFile.parse? plainClass with
  | none =>
    rw [parsed] at readable
    cases readable
  | some file =>
    rw [parsed, Option.any_some, Bool.and_eq_true, beq_iff_eq, List.length_eq_one_iff] at readable
    rcases readable with ⟨⟨statement, alone⟩, fitting⟩
    rw [alone, List.all_cons, Bool.and_eq_true] at fitting
    have own := fitting.1
    unfold Statement.isUnopposed at own
    cases extracted : extract statement none with
    | error diagnostic =>
      rw [extracted] at own
      cases own
    | ok model =>
      rw [extracted] at own
      have asks := Bool.and_eq_true_iff.1 own
      rw [Option.isNone_iff_eq_none] at asks
      have unopposed : model.Unopposed ⟨"1", "Ref", "View", true⟩ none :=
        ⟨fun _ => asks.1, asks.2⟩
      have requested : Capability.destructure ∈ model.requested :=
        List.mem_filter.2 ⟨by decide, asks.1⟩
      have member : statement ∈ file.body := by
        rw [alone]
        exact List.mem_singleton_self _
      have top : ⟨topOfFile ⟨"1", "Ref", "View", true⟩ none file, file.body⟩ ∈
          file.lists ⟨"1", "Ref", "View", true⟩ none := List.mem_cons_self ..
      rcases generated_ends checked parsed top member none none with ⟨-, -, ends⟩
      rcases (ends model extracted).2.1 unopposed ⟨.destructure, requested, .inl (by decide)⟩ with
        ⟨diagnostic, refused, kind⟩
      exact ⟨_, file, statement, model, diagnostic, checked, rfl, alone, extracted, unopposed,
        refused, kind⟩

end OpenRecord
