import OpenRecord.Proofs.Live.Installing
import OpenRecord.Proofs.Record.GeneratedNames

namespace OpenRecord
namespace Live

/-!
# The books of a class

Capabilities are applied to a class in any order, again and again, with settings or without, and
some applications are refused.  A refused application changes nothing.  After the first one that
succeeds the books of the class are in order, whatever follows: what is installed is what its model
requests, the writable view comes with a companion only, and the generated types and methods are
those of the model under the settings of that first application.  So a class is asked for its
companion in vain only if it has none.
-/

open Source

/-! ## The model of a class -/

theorem extractFrom_typeName {file : SourceFile} {name : Text} {location : Option Location}
    {model : RecordModel} (extracted : extractFrom file (some name) location = .ok model) :
    model.typeName = name := by
  unfold extractFrom at extracted
  cases found : file.body.find? (isClassNamed (some name)) with
  | none =>
    rw [found] at extracted
    cases extracted
  | some statement =>
    rw [found] at extracted
    have named : isClassNamed (some name) statement = true := List.find?_some found
    cases statement with
    | definition head body =>
      simp only [isClassNamed, extract] at named extracted
      cases role : head.role with
      | functionDefinition function =>
        rw [role] at named
        cases named
      | classDefinition shape =>
        rw [role] at named extracted
        have same : name = shape.name := by simpa using named
        exact (extractClass_eq_ok extracted).1.trans same.symm
    | _ => cases named

/-- Whether a fault is one of code that was run. -/
def Fault.isFailure : Fault → Bool
  | .failed _ => true
  | _ => false

/-- Reading a class changes nothing and runs no code. -/
theorem run_classSource (session : Session) (type : Nat) :
    ∃ result, (classSource type).run session = (result, session) ∧
      ∀ fault, result = .error fault → fault.isFailure = false := by
  unfold classSource
  rw [run_bind, run_get]
  dsimp only
  split
  · refine ⟨_, rfl, fun fault same => ?_⟩
    cases same
    rfl
  · split
    · refine ⟨_, rfl, fun fault same => ?_⟩
      cases same
      rfl
    · exact ⟨_, rfl, nofun⟩

theorem run_readModel (session : Session) (type : Nat) :
    (∃ fault, (readModel type).run session = (.error fault, session) ∧
        fault.isFailure = false) ∨
      ∃ model, (readModel type).run session = (.ok model, session) ∧
        model.typeName = session.nameOf type := by
  obtain ⟨result, read, harmless⟩ := run_classSource session type
  unfold readModel
  rw [run_bind, run_get]
  dsimp only
  rw [run_bind, read]
  cases result with
  | error fault => exact .inl ⟨fault, rfl, harmless fault rfl⟩
  | ok found =>
    obtain ⟨code, location⟩ := found
    dsimp only
    cases SourceFile.parse? code with
    | none => exact .inl ⟨.unreadable, rfl, rfl⟩
    | some file =>
      dsimp only
      cases extracted : extractFrom file (some (session.nameOf type)) (some location) with
      | error diagnostic => exact .inl ⟨.refused diagnostic, rfl, rfl⟩
      | ok model => exact .inr ⟨model, rfl, extractFrom_typeName extracted⟩

theorem isFailure_of_defineArtifacts {scope : Nat} {artifacts : List Artifact}
    {session after : Session} {fault : Fault}
    (ran : (defineArtifacts scope artifacts).run session = (.error fault, after)) :
    fault.isFailure = true := by
  induction artifacts generalizing session with
  | nil => cases ran
  | cons artifact later ih =>
    have fails := (extending_define extending_callAlone [scope] [] artifact.definition session).fails
    rw [defineArtifacts, run_bind] at ran
    rcases defined : (define callAlone [scope] [] artifact.definition).run session with
      ⟨other | value, between⟩
    · rw [defined] at ran fails
      cases ran
      obtain ⟨failure, rfl⟩ := fails fault rfl
      rfl
    · rw [defined] at ran
      exact ih ran

/-! ## Plans -/

theorem namesAt_capabilityArtifacts (model : RecordModel) (settings : Settings)
    (capability : Capability) :
    namesAt .besideClass (capabilityArtifacts model settings capability) =
        [capability.typeName settings model.typeName] ∧
      namesAt .inClass (capabilityArtifacts model settings capability) =
        capability.methodNames := by
  cases capability <;> exact ⟨rfl, rfl⟩

theorem capability_of_mem {model : RecordModel} {settings : Settings} {capability : Capability}
    {artifact : Artifact} (member : artifact ∈ capabilityArtifacts model settings capability) :
    artifact.kind.capability = capability := by
  have each : (capabilityArtifacts model settings capability).map (·.kind.capability) =
      (capabilityArtifacts model settings capability).map fun _ => capability := by
    cases capability <;> rfl
  exact List.map_inj_left.1 each artifact member

theorem mem_namesAt_pending {installed : Option Installation} {model : RecordModel}
    {settings : Settings} {placement : Placement} {key : Text} :
    key ∈ namesAt placement (pendingArtifacts installed (synthesize model settings)) ↔
      ∃ capability, model.requests capability = true ∧
        (installedCapabilities installed).contains capability = false ∧
        key ∈ namesAt placement (capabilityArtifacts model settings capability) := by
  simp only [mem_namesAt, pendingArtifacts, List.mem_filter, synthesize, List.mem_flatMap,
    mem_requested, Bool.not_eq_true']
  constructor
  · rintro ⟨artifact, ⟨⟨capability, requested, member⟩, pending⟩, placed⟩
    rw [capability_of_mem member] at pending
    exact ⟨capability, requested, pending, artifact, member, placed⟩
  · rintro ⟨capability, requested, pending, artifact, member, placed⟩
    exact ⟨artifact, ⟨⟨capability, requested, member⟩, by rwa [capability_of_mem member]⟩, placed⟩

theorem planInstallation_eq_ok {installed : Option Installation} {capability : Capability}
    {given : Option Settings} {extracted : RecordModel} {scope : Option (List Text)} {plan : Plan}
    (planned : planInstallation installed capability given extracted scope = .ok plan) :
    plan.settings = effectiveSettings installed given ∧
      plan.model = requestedModel installed capability extracted ∧
      plan.pending = pendingArtifacts installed (synthesize plan.model plan.settings) ∧
      (plan.model.requests .mutation = true → plan.model.requests .destructure = true) := by
  unfold planInstallation at planned
  cases generated : generate (requestedModel installed capability extracted)
      (effectiveSettings installed given) scope with
  | error diagnostic =>
    simp only [generated] at planned
    cases planned
  | ok artifacts =>
    simp only [generated] at planned
    cases planned
    refine ⟨rfl, rfl, ?_, ?_⟩
    · rw [(generate_eq_ok generated).1]
    · intro mutates
      by_contra alone
      rw [Bool.not_eq_true] at alone
      have refused : ((requestedModel installed capability extracted).requests .mutation &&
          !(requestedModel installed capability extracted).requests .destructure) = true := by
        rw [mutates, alone]
        rfl
      rw [generate, if_pos refused] at generated
      cases generated

theorem generate_of_planned {installed : Option Installation} {capability : Capability}
    {given : Option Settings} {extracted : RecordModel} {scope : Option (List Text)} {plan : Plan}
    (planned : planInstallation installed capability given extracted scope = .ok plan) :
    generate plan.model plan.settings scope = .ok (synthesize plan.model plan.settings) := by
  unfold planInstallation at planned
  cases generated : generate (requestedModel installed capability extracted)
      (effectiveSettings installed given) scope with
  | error diagnostic =>
    simp only [generated] at planned
    cases planned
  | ok artifacts =>
    simp only [generated] at planned
    cases planned
    rw [generated, (generate_eq_ok generated).1]

/-- The plan that an application of a capability makes; none if the capability is installed
already. -/
def planApplication (capability : Capability) (given : Option Settings) (type : Nat) :
    Action (Option Plan) := do
  let session ← get
  let installed := (session.types[type]?).bind (·.installed)
  if (installedCapabilities installed).contains capability then return none
  else
    let extracted ← readModel type
    let scope := takenNames session (session.qualifiedNameOf type)
    match planInstallation installed capability given extracted scope with
    | .error diagnostic => throw (.refused diagnostic)
    | .ok plan => return some plan

theorem run_applyToType_planned (capability : Capability) (given : Option Settings) (type : Nat)
    (session : Session) :
    (applyToType capability given type).run session =
      match (planApplication capability given type).run session with
      | (.ok none, after) => (.ok (), after)
      | (.ok (some plan), after) =>
        (install type ((session.types[type]?).bind (·.installed)) plan).run after
      | (.error fault, after) => (.error fault, after) := by
  rw [applyToType, planApplication, run_bind, run_bind, run_get]
  dsimp only
  split
  · rfl
  · rw [run_bind, run_bind]
    rcases (readModel type).run session with ⟨fault | extracted, after⟩
    · rfl
    · dsimp only
      cases planInstallation ((session.types[type]?).bind (·.installed)) capability given extracted
        (takenNames session (session.qualifiedNameOf type)) <;> rfl

section Planning

variable {session : Session} {type : Nat} {live : LiveType} {capability : Capability}
  (known : session.types[type]? = some live)
include known

theorem run_planApplication_of_read {extracted : RecordModel}
    (missing : (installedCapabilities live.installed).contains capability = false)
    (read : (readModel type).run session = (.ok extracted, session)) (given : Option Settings) :
    (planApplication capability given type).run session =
      match planInstallation live.installed capability given extracted
        (takenNames session live.qualifiedName) with
      | .error diagnostic => (.error (.refused diagnostic), session)
      | .ok plan => (.ok (some plan), session) := by
  have qualified : session.qualifiedNameOf type = live.qualifiedName := by
    rw [Session.qualifiedNameOf, known]
  unfold planApplication
  rw [run_bind, run_get]
  dsimp only
  rw [known, Option.bind_some, missing, if_neg Bool.false_ne_true, run_bind_of_ok read, qualified]
  cases planInstallation live.installed capability given extracted
    (takenNames session live.qualifiedName) <;> rfl

/-- What an application plans: it is refused, it finds the capability installed, or it goes by the
model that is read.  Nothing changes, and no code is run. -/
theorem run_planApplication (capability : Capability) (given : Option Settings) :
    (∃ fault, fault.isFailure = false ∧
        (planApplication capability given type).run session = (.error fault, session)) ∨
      ((installedCapabilities live.installed).contains capability = true ∧
        (planApplication capability given type).run session = (.ok none, session)) ∨
      ∃ extracted plan,
        (readModel type).run session = (.ok extracted, session) ∧
        extracted.typeName = live.name ∧
        planInstallation live.installed capability given extracted
          (takenNames session live.qualifiedName) = .ok plan ∧
        (planApplication capability given type).run session = (.ok (some plan), session) := by
  cases contained : (installedCapabilities live.installed).contains capability with
  | true =>
    refine .inr (.inl ⟨rfl, ?_⟩)
    unfold planApplication
    rw [run_bind, run_get]
    dsimp only
    rw [known, Option.bind_some, contained]
    rfl
  | false =>
    rcases run_readModel session type with ⟨fault, failed, harmless⟩ | ⟨extracted, read, named⟩
    · refine .inl ⟨fault, harmless, ?_⟩
      unfold planApplication
      rw [run_bind, run_get]
      dsimp only
      rw [known, Option.bind_some, contained, if_neg Bool.false_ne_true, run_bind, failed]
    · have plans := run_planApplication_of_read known contained read given
      cases planned : planInstallation live.installed capability given extracted
          (takenNames session live.qualifiedName) with
      | error diagnostic =>
        rw [planned] at plans
        exact .inl ⟨.refused diagnostic, rfl, plans⟩
      | ok plan =>
        rw [planned] at plans
        refine .inr (.inr ⟨extracted, plan, read, ?_, planned, plans⟩)
        rw [named, Session.nameOf, known]

end Planning

/-! ## Books in order -/

/-- The books of a class are in order. -/
structure LiveType.InOrder (live : LiveType) (installation : Installation) : Prop where
  installed : live.installed = some installation
  named : installation.model.typeName = live.name
  capabilities : installation.capabilities = installation.model.capabilities
  companion : installation.capabilities.contains .mutation = true →
    installation.capabilities.contains .destructure = true
  types : ∀ key, key ∈ installation.types.names ↔
    key ∈ installation.model.generatedTypeNames installation.settings
  methods : ∀ method ∈ installation.model.generatedMethodNames,
    ∃ value, live.attributes.get? method = some (.value value)

/-- A class of a session has its books in order under some settings, and the scope of its
installation is there. -/
def Session.InOrder (session : Session) (type : Nat) (settings : Settings) : Prop :=
  ∃ live installation, session.types[type]? = some live ∧ live.InOrder installation ∧
    installation.settings = settings ∧ session.Binds installation.scope []

theorem requests_requestedModel {installed : Option Installation} {capability other : Capability}
    {extracted : RecordModel}
    (contained : (installedCapabilities installed).contains other = true) :
    (requestedModel installed capability extracted).requests other = true := by
  rw [RecordModel.requests, requestedModel, Capabilities.contains_union, contained, Bool.or_true]

theorem union_requestedModel (installed : Option Installation) (capability : Capability)
    (extracted : RecordModel) :
    (installedCapabilities installed).union
        (requestedModel installed capability extracted).capabilities =
      (requestedModel installed capability extracted).capabilities := by
  simp only [requestedModel, Capabilities.union, Capabilities.mk.injEq]
  refine ⟨?_, ?_, ?_⟩ <;> rw [Bool.or_comm, Bool.or_assoc, Bool.or_self]

section Applications

variable {session : Session} {type : Nat} {live : LiveType} {capability : Capability}
  {given : Option Settings}

/-- What the books say before an installation, of a class that has one and of a class that has
none. -/
theorem begun_inOrder {extracted : RecordModel} {plan : Plan}
    (settings : plan.settings = effectiveSettings live.installed given)
    (model : plan.model = requestedModel live.installed capability extracted)
    (named : extracted.typeName = live.name)
    (books : ∀ installation ∈ live.installed, live.InOrder installation) (scope : Nat) :
    (begun live.installed plan scope).settings = plan.settings ∧
      (begun live.installed plan scope).capabilities = installedCapabilities live.installed ∧
      (∀ key, key ∈ (begun live.installed plan scope).types.names ↔ ∃ other,
        (installedCapabilities live.installed).contains other = true ∧
          other.typeName plan.settings plan.model.typeName = key) ∧
      ∀ other, (installedCapabilities live.installed).contains other = true →
        ∀ method ∈ other.methodNames,
          ∃ value, live.attributes.get? method = some (.value value) := by
  cases installed : live.installed with
  | none =>
    refine ⟨rfl, rfl, fun key => ⟨nofun, ?_⟩, ?_⟩
    · rintro ⟨other, contained, -⟩
      cases other <;> cases contained
    · intro other contained
      cases other <;> cases contained
  | some installation =>
    have inOrder := books installation (by rw [installed]; rfl)
    rw [installed] at settings model
    have sameName : installation.model.typeName = plan.model.typeName := by
      rw [inOrder.named, model]
      exact named.symm
    have requested : ∀ other, installation.model.requests other =
        installation.capabilities.contains other := by
      intro other
      rw [inOrder.capabilities]
      rfl
    refine ⟨settings.symm, rfl, fun key => ?_, fun other contained method member => ?_⟩
    · have sameSettings : installation.settings = plan.settings := settings.symm
      rw [begun, Option.getD_some, inOrder.types, mem_generatedTypeNames, sameName, sameSettings]
      simp only [requested, installedCapabilities]
    · refine inOrder.methods method (mem_generatedMethodNames.2 ⟨other, ?_, member⟩)
      rw [requested]
      exact contained

theorem run_install_inOrder {extracted : RecordModel} {scope : Option (List Text)} {plan : Plan}
    (known : session.types[type]? = some live)
    (books : ∀ installation ∈ live.installed,
      live.InOrder installation ∧ session.Binds installation.scope [])
    (named : extracted.typeName = live.name)
    (planned : planInstallation live.installed capability given extracted scope = .ok plan) :
    (∃ failure after, (install type live.installed plan).run session =
        (.error (.failed failure), after)) ∨
      ∃ after, (install type live.installed plan).run session = (.ok (), after) ∧
        after.InOrder type (effectiveSettings live.installed given) := by
  obtain ⟨settings, model, pending, needs⟩ := planInstallation_eq_ok planned
  obtain ⟨sameSettings, sameCapabilities, oldTypes, oldMethods⟩ :=
    begun_inOrder settings model named (fun installation member => (books installation member).1)
      session.scopes.length
  -- the class keeps the methods of what is installed and gets those of what is pending
  have registers : session.Registers type live.name live.installed
      ((Capability.all.filter (installedCapabilities live.installed).contains).flatMap
        (·.methodNames)) := by
    refine ⟨live, known, rfl, rfl, fun method member => ?_⟩
    obtain ⟨other, contained, brought⟩ := List.mem_flatMap.1 member
    exact oldMethods other (List.mem_filter.1 contained).2 method brought
  refine (run_install plan registers fun installation member =>
    (books installation member).2).imp_right ?_
  rintro ⟨after, types, installed, ⟨later, stillKnown, sameName, noted, values⟩, ready, keys⟩
  have requested : ∀ other, (installedCapabilities live.installed).contains other = true →
      plan.model.requests other = true := by
    intro other contained
    rw [model]
    exact requests_requestedModel contained
  have union : (begun live.installed plan session.scopes.length).capabilities.union
      plan.model.capabilities = plan.model.capabilities := by
    rw [sameCapabilities, model]
    exact union_requestedModel _ _ _
  refine ⟨after, installed, later, _, stillKnown, ⟨noted, ?_, union, ?_, fun key => ?_, ?_⟩,
    sameSettings.trans settings, ready⟩
  · rw [sameName, ← named, model]
    rfl
  · rw [union]
    exact needs
  · rw [keys, oldTypes, pending, mem_namesAt_pending, mem_generatedTypeNames, sameSettings]
    simp only [(namesAt_capabilityArtifacts _ _ _).1, List.mem_singleton]
    constructor
    · rintro (⟨other, wanted, -, rfl⟩ | ⟨other, contained, same⟩)
      · exact ⟨other, wanted, rfl⟩
      · exact ⟨other, requested other contained, same⟩
    · rintro ⟨other, wanted, same⟩
      cases contained : (installedCapabilities live.installed).contains other with
      | false => exact .inl ⟨other, wanted, contained, same.symm⟩
      | true => exact .inr ⟨other, contained, same⟩
  · intro method member
    obtain ⟨other, wanted, brought⟩ := mem_generatedMethodNames.1 member
    refine values method (List.mem_append.2 ?_)
    cases contained : (installedCapabilities live.installed).contains other with
    | false =>
      refine .inl ?_
      rw [pending, mem_namesAt_pending]
      refine ⟨other, wanted, contained, ?_⟩
      rw [(namesAt_capabilityArtifacts _ _ _).2]
      exact brought
    | true =>
      exact .inr (List.mem_flatMap.2
        ⟨other, List.mem_filter.2 ⟨Capability.mem_all other, contained⟩, brought⟩)

/-- What an application of a capability comes to: it is refused, it finds the capability installed,
or it installs what is pending.  Only in the last case something changes. -/
theorem run_applyToType (known : session.types[type]? = some live) :
    (∃ fault, fault.isFailure = false ∧
        (applyToType capability given type).run session = (.error fault, session)) ∨
      ((installedCapabilities live.installed).contains capability = true ∧
        (applyToType capability given type).run session = (.ok (), session)) ∨
      ∃ extracted plan, extracted.typeName = live.name ∧
        planInstallation live.installed capability given extracted
          (takenNames session live.qualifiedName) = .ok plan ∧
        (applyToType capability given type).run session =
          (install type live.installed plan).run session := by
  rw [run_applyToType_planned, known, Option.bind_some]
  rcases run_planApplication known capability given with
    ⟨fault, harmless, refused⟩ | ⟨contained, found⟩ | ⟨extracted, plan, -, named, planned, plans⟩
  · exact .inl ⟨fault, harmless, by rw [refused]⟩
  · exact .inr (.inl ⟨contained, by rw [found]⟩)
  · exact .inr (.inr ⟨extracted, plan, named, planned, by rw [plans]⟩)

/-- An application whose code does not fail leaves the session alone or the books in order. -/
theorem run_applyCapability (known : session.types[type]? = some live)
    (books : ∀ installation ∈ live.installed,
      live.InOrder installation ∧ session.Binds installation.scope [])
    {outcome : Except Fault Value} {after : Session}
    (ran : (applyCapability capability given (.type type)).run session = (outcome, after))
    (executes : ∀ failure, outcome ≠ .error (.failed failure)) :
    outcome.isOk = false ∧ after = session ∨
      outcome.isOk = true ∧ after.InOrder type (effectiveSettings live.installed given) := by
  rw [applyCapability, ← map_eq_pure_bind, run_map] at ran
  rcases (run_applyToType known : _ ∨ _ ∨ ∃ extracted plan, _ ∧
      planInstallation live.installed capability given extracted
        (takenNames session live.qualifiedName) = .ok plan ∧ _) with
    ⟨fault, -, refused⟩ | ⟨contained, found⟩ | ⟨extracted, plan, named, planned, installs⟩
  · rw [refused] at ran
    cases ran
    exact .inl ⟨rfl, rfl⟩
  · rw [found] at ran
    cases ran
    cases installed : live.installed with
    | none =>
      rw [installed] at contained
      cases capability <;> cases contained
    | some installation =>
      obtain ⟨inOrder, ready⟩ := books installation (by rw [installed]; rfl)
      exact .inr ⟨rfl, live, installation, known, inOrder, rfl, ready⟩
  · rw [installs] at ran
    rcases run_install_inOrder known books named planned with
      ⟨failure, last, failed⟩ | ⟨last, installed, inOrder⟩
    · rw [failed] at ran
      cases ran
      exact absurd rfl (executes failure)
    · rw [installed] at ran
      cases ran
      exact .inr ⟨rfl, inOrder⟩

end Applications

/-! ## Asking for the companion -/

/-- A class of a session answers for its companion: it has one if the capability is installed, and
else the question is an error of type. -/
def Session.AnswersCompanion (session : Session) (type : Nat) (installed : Option Installation) :
    Prop :=
  if (installedCapabilities installed).contains .destructure then
    ∃ value, (companionOf type).run session = (.ok value, session)
  else
    ∃ failure, failure.kind = .type ∧
      (companionOf type).run session = (.error (.failed failure), session)

section Companion

variable {session : Session} {type : Nat} {live : LiveType}

theorem answersCompanion_fresh (known : session.types[type]? = some live)
    (fresh : live.installed = none) : session.AnswersCompanion type none := by
  refine ⟨.noCompanion (session.written type), rfl, ?_⟩
  simp only [companionOf, run_bind, run_get, known, Option.bind_some, fresh, run_fail]

theorem answersCompanion_inOrder {installation : Installation}
    (known : session.types[type]? = some live) (inOrder : live.InOrder installation) :
    session.AnswersCompanion type live.installed := by
  have installed : (session.types[type]?).bind (·.installed) = some installation := by
    rw [known, Option.bind_some, inOrder.installed]
  rw [inOrder.installed, Session.AnswersCompanion, installedCapabilities]
  cases contained : installation.capabilities.contains .destructure with
  | false =>
    refine ⟨.noCompanion (session.written type), rfl, ?_⟩
    simp only [companionOf, run_bind, run_get, installed, contained, Bool.false_eq_true, if_false,
      run_fail]
  | true =>
    have generated : companionName live.name installation.settings ∈
        installation.model.generatedTypeNames installation.settings := by
      refine mem_generatedTypeNames.2 ⟨.destructure, ?_, congrArg (companionName · _) inOrder.named⟩
      rw [RecordModel.requests, ← inOrder.capabilities, contained]
    obtain ⟨value, found⟩ := Option.isSome_iff_exists.1
      (isSome_lookupName_iff.2 ((inOrder.types _).2 generated))
    have name : session.nameOf type = live.name := by rw [Session.nameOf, known]
    refine ⟨value, ?_⟩
    simp only [companionOf, run_bind, run_get, installed, contained, if_true, name, NameTable.get?,
      found, run_pure]

end Companion

/-! ## Applications one after the other -/

/-- An application of a capability, with settings of its own or none. -/
structure Application where
  capability : Capability
  given : Option Settings

/-- What several applications to a class come to, one after the other, and the session that they
leave. -/
def applyEach (type : Nat) : List Application → Session → List (Except Fault Value) × Session
  | [], session => ([], session)
  | application :: later, session =>
    let (outcome, after) :=
      (applyCapability application.capability application.given (.type type)).run session
    let (outcomes, last) := applyEach type later after
    (outcome :: outcomes, last)

section Runs

variable {session : Session} {type : Nat}

theorem applyEach_cons {application : Application} {later : List Application}
    {outcome : Except Fault Value} {after : Session}
    (ran : (applyCapability application.capability application.given (.type type)).run session =
      (outcome, after)) :
    applyEach type (application :: later) session =
      (outcome :: (applyEach type later after).1, (applyEach type later after).2) := by
  rw [applyEach, ran]

theorem inOrder_applyEach {settings : Settings} {applications : List Application}
    (inOrder : session.InOrder type settings)
    (executes : ∀ outcome ∈ (applyEach type applications session).1, ∀ failure,
      outcome ≠ .error (.failed failure)) :
    (applyEach type applications session).2.InOrder type settings := by
  induction applications generalizing session with
  | nil => exact inOrder
  | cons application later ih =>
    rcases ran : (applyCapability application.capability application.given (.type type)).run
      session with ⟨outcome, after⟩
    rw [applyEach_cons ran] at executes ⊢
    rw [List.forall_mem_cons] at executes
    refine ih ?_ executes.2
    obtain ⟨live, installation, known, books, same, ready⟩ := inOrder
    have held : ∀ other ∈ live.installed, live.InOrder other ∧ session.Binds other.scope [] := by
      intro other member
      rw [books.installed] at member
      obtain rfl := Option.mem_some_iff.1 member
      exact ⟨books, ready⟩
    rcases run_applyCapability known held ran executes.1 with ⟨-, rfl⟩ | ⟨-, nowInOrder⟩
    · exact ⟨live, installation, known, books, same, ready⟩
    · rw [books.installed, effectiveSettings, same] at nowInOrder
      exact nowInOrder

/-- Up to the first application that succeeds a class is left as it is, and from then on its books
are in order under the settings of that application, or the default ones if it had none. -/
theorem applyEach_bookkeeping {live : LiveType} {applications : List Application}
    (known : session.types[type]? = some live) (fresh : live.installed = none)
    (executes : ∀ outcome ∈ (applyEach type applications session).1, ∀ failure,
      outcome ≠ .error (.failed failure)) :
    ((∀ outcome ∈ (applyEach type applications session).1, outcome.isOk = false) ∧
        (applyEach type applications session).2 = session ∧
        session.AnswersCompanion type none) ∨
      ∃ first outcome later installation,
        (applications.zip (applyEach type applications session).1).find? (·.2.isOk) =
            some (first, outcome) ∧
          (applyEach type applications session).2.types[type]? = some later ∧
          later.InOrder installation ∧
          installation.settings = first.given.getD Settings.default ∧
          (applyEach type applications session).2.AnswersCompanion type later.installed := by
  induction applications with
  | nil => exact .inl ⟨List.forall_mem_nil _, rfl, answersCompanion_fresh known fresh⟩
  | cons application applications ih =>
    rcases ran : (applyCapability application.capability application.given (.type type)).run
      session with ⟨outcome, after⟩
    rw [applyEach_cons ran] at executes ⊢
    rw [List.forall_mem_cons] at executes
    rw [List.zip_cons_cons, List.find?_cons, List.forall_mem_cons]
    have held : ∀ other ∈ live.installed, live.InOrder other ∧ session.Binds other.scope [] := by
      intro other member
      rw [fresh] at member
      cases member
    rcases run_applyCapability known held ran executes.1 with
      ⟨refused, rfl⟩ | ⟨succeeded, inOrder⟩
    -- a refused application leaves the session that the others start from
    · rw [refused]
      refine (ih executes.2).imp_left fun unchanged => ?_
      exact ⟨⟨rfl, unchanged.1⟩, unchanged.2⟩
    · rw [succeeded]
      obtain ⟨later, installation, stillKnown, books, same, -⟩ :=
        inOrder_applyEach inOrder executes.2
      refine .inr ⟨application, outcome, later, installation, rfl, stillKnown, books, ?_,
        answersCompanion_inOrder stillKnown books⟩
      rw [same, fresh]
      rfl

end Runs

/-- A class of a module. -/
def pointType : LiveType :=
  plainType "P" "P" [] none ⟨.empty, [], none⟩

def pointSession : Session where
  cells := []
  types := [pointType]
  functions := []
  scopes := [⟨[("P", .type 0)]⟩]
  held := .empty
  notes := []
  source := SourceFile.parse? "class P:\n    x: int\n"

def openSettings : Settings :=
  ⟨"Open", "Edit", "View", true⟩

/-- A writable view is asked for too early, and then a companion. -/
def pointApplications : List Application :=
  [⟨.mutation, none⟩, ⟨.destructure, some openSettings⟩]

/-- A refusal and a success. -/
def isRefusedThenMade : List (Except Fault Value) → Bool
  | [.error (.refused _), .ok _] => true
  | _ => false

theorem pointSession_outcomes : ∃ diagnostic value after,
    applyEach 0 pointApplications pointSession =
      ([.error (.refused diagnostic), .ok value], after) := by
  have checked : isRefusedThenMade (applyEach 0 pointApplications pointSession).1 = true := by
    decide +kernel
  generalize applyEach 0 pointApplications pointSession = result at checked ⊢
  obtain ⟨outcomes, after⟩ := result
  dsimp only at checked
  unfold isRefusedThenMade at checked
  split at checked
  · exact ⟨_, _, _, rfl⟩
  · cases checked

/-- The first application is refused, and the settings of the second one are kept. -/
theorem pointSession_bookkeeping : ∃ later installation,
    (applyEach 0 pointApplications pointSession).2.types[0]? = some later ∧
      later.InOrder installation ∧
      installation.settings = openSettings ∧
      (applyEach 0 pointApplications pointSession).2.AnswersCompanion 0 later.installed := by
  obtain ⟨diagnostic, value, after, ran⟩ := pointSession_outcomes
  have known : pointSession.types[0]? = some pointType := rfl
  have fresh : pointType.installed = none := rfl
  have executes : ∀ outcome ∈ (applyEach 0 pointApplications pointSession).1, ∀ failure,
      outcome ≠ .error (.failed failure) := by
    rintro outcome member failure rfl
    rw [ran] at member
    rcases List.mem_pair.1 member with refused | succeeded
    · cases refused
    · cases succeeded
  have law := applyEach_bookkeeping known fresh executes
  rw [ran] at law ⊢
  rcases law with ⟨refused, -⟩ | ⟨first, outcome, later, installation, found, rest⟩
  · cases refused (.ok value) (List.mem_cons_of_mem _ (List.mem_singleton_self _))
  · cases found
    exact ⟨later, installation, rest⟩

end Live
end OpenRecord
